import RmwDps.Discovery.GraphQueries
import RmwDps.Foundation.Ownership

/-!
# The results of graph queries

`_copy_data_to_results` and `rmw_get_node_names` with every string and array that they
allocate.  An allocation can fail anywhere in their loops, and then all that the caller
would have got is given back.

The functions of rcutils and rmw on string arrays are not part of the repository.  They
are the class `Rcutils`, and what they are documented to do is `Rcutils.Lawful`; which of
their allocations succeed is left open.
-/

namespace RmwDps
namespace Lifecycle

open Discovery (CustomNodeInfo Node NamesAndTypes RmwNamesAndTypes cStr)
open Ownership (Block Heap Program acquire tryAcquire release releaseIfAny misuse owned Triple
  GivesBack)
open Serialization (StdString)

/-! ## Strings and arrays -/

/-- What a query allocates. -/
inductive ResultBlock
  | string
  | stringArray
  | typesArray
  deriving DecidableEq, Repr

/-- A string that `rcutils_strdup` has returned. -/
structure CopiedString where
  block : Block ResultBlock
  text : StdString
  deriving DecidableEq, Repr

/-- `rcutils_string_array_t`; `data` has the pointers behind `block`. -/
structure StringArray where
  block : Option (Block ResultBlock)
  data : List (Option CopiedString)
  deriving DecidableEq, Repr

/-- `rcutils_get_zero_initialized_string_array`. -/
def StringArray.zero : StringArray := { block := none, data := [] }

def StringArray.owns (array : StringArray) : Multiset (Block ResultBlock) :=
  owned array.block + ((array.data.reduceOption.map CopiedString.block : List _) : Multiset _)

/-- `array.data[index] = string`. -/
def StringArray.store (array : StringArray) (index : Nat) (string : Option CopiedString) :
    Program ResultBlock StringArray :=
  if index < array.data.length then
    return { array with data := array.data.set index string }
  else do
    misuse
    return array

/-- `rmw_names_and_types_t`; `types` has the arrays behind `block`. -/
structure ResultArrays where
  names : StringArray
  block : Option (Block ResultBlock)
  types : List StringArray
  deriving DecidableEq, Repr

/-- `rmw_get_zero_initialized_names_and_types`. -/
def ResultArrays.zero : ResultArrays := { names := .zero, block := none, types := [] }

def ResultArrays.owns (results : ResultArrays) : Multiset (Block ResultBlock) :=
  results.names.owns + owned results.block + (results.types.map StringArray.owns).sum

/-- `topic_names_and_types->names.data[index] = topic_name`. -/
def ResultArrays.storeName (results : ResultArrays) (index : Nat) (string : CopiedString) :
    Program ResultBlock ResultArrays := do
  let names ← results.names.store index (some string)
  return { results with names }

/-- What is written through `&topic_names_and_types->types[index]`. -/
def ResultArrays.storeArray (results : ResultArrays) (index : Nat) (array : StringArray) :
    Program ResultBlock ResultArrays :=
  if index < results.types.length then
    return { results with types := results.types.set index array }
  else do
    misuse
    return results

/-- `topic_names_and_types->types[index].data[type_index] = type_name`. -/
def ResultArrays.storeType (results : ResultArrays) (index typeIndex : Nat)
    (string : CopiedString) : Program ResultBlock ResultArrays :=
  match results.types[index]? with
  | some array => do
      let array ← array.store typeIndex (some string)
      return { results with types := results.types.set index array }
  | none => do
      misuse
      return results

/-! ## The functions of other packages -/

/-- `rcutils_strdup`, `rcutils_string_array_init` and `_fini`, and
`rmw_names_and_types_init` and `_fini`, with an allocator. -/
class Rcutils where
  strdup : StdString → Program ResultBlock (Option CopiedString)
  stringArrayInit : Nat → Program ResultBlock (RmwRet × StringArray)
  stringArrayFini : StringArray → Program ResultBlock (RmwRet × StringArray)
  namesAndTypesInit : Nat → Program ResultBlock (RmwRet × ResultArrays)
  namesAndTypesFini : ResultArrays → Program ResultBlock (RmwRet × ResultArrays)

/-- A string is copied or null, an array comes with null pointers or not at all, and what
is finalized gives back everything in it. -/
class Rcutils.Lawful [Rcutils] : Prop where
  strdup (text : StdString) : Triple 0 (Rcutils.strdup text) fun string left =>
    left = owned (string.map CopiedString.block) ∧ ∀ copy ∈ string, copy.text = text
  stringArrayInit (size : Nat) : Triple 0 (Rcutils.stringArrayInit size) fun result left =>
    left = result.2.owns ∧
      if result.1 = .ok then result.2.data = List.replicate size none else result.2.owns = 0
  stringArrayFini (array : StringArray) :
    Triple array.owns (Rcutils.stringArrayFini array) fun result left =>
      left = 0 ∧ result.2.owns = 0
  namesAndTypesInit (size : Nat) : Triple 0 (Rcutils.namesAndTypesInit size) fun result left =>
    left = result.2.owns ∧
      if result.1 = .ok then
        result.2.names.data = List.replicate size none ∧
          result.2.types = List.replicate size StringArray.zero
      else result.2.owns = 0
  namesAndTypesFini (results : ResultArrays) :
    Triple results.owns (Rcutils.namesAndTypesFini results) fun result left =>
      left = 0 ∧ result.2.owns = 0

section Functions

variable [Rcutils]

/-! ## `_copy_data_to_results` -/

/-- `fail_cleanup()` and the return of `ret`. -/
def failCleanup (ret : RmwRet) (results : ResultArrays) :
    Program ResultBlock (RmwRet × ResultArrays) := do
  let (_, results) ← Rcutils.namesAndTypesFini results
  return (ret, results)

section Loops

variable (demangleType : StdString → StdString)

/-- The loop over the types of a topic. -/
def storeTypes (index : Nat) :
    Nat → List StdString → ResultArrays → Program ResultBlock (RmwRet × ResultArrays)
  | _, [], results => return (.ok, results)
  | typeIndex, type :: types, results => do
      let typeName ← Rcutils.strdup (cStr (demangleType type))
      match typeName with
      | none => failCleanup (.error "failed to allocate memory for type name") results
      | some typeName => do
          let results ← results.storeType index typeIndex typeName
          storeTypes index (typeIndex + 1) types results

/-- The loop over the topics. -/
def storeTopics :
    Nat → List (StdString × List StdString) → ResultArrays →
      Program ResultBlock (RmwRet × ResultArrays)
  | _, [], results => return (.ok, results)
  | index, topic :: topics, results => do
      let topicName ← Rcutils.strdup (cStr topic.1)
      match topicName with
      | none => failCleanup (.error "failed to allocate memory for topic name") results
      | some topicName => do
          let results ← results.storeName index topicName
          let (ret, array) ← Rcutils.stringArrayInit topic.2.length
          let results ← results.storeArray index array
          if ret ≠ .ok then failCleanup ret results
          else do
            let (ret, results) ← storeTypes demangleType index 0 topic.2 results
            if ret ≠ .ok then return (ret, results)
            else storeTopics (index + 1) topics results

/-- `_copy_data_to_results`, on results that are zero-initialized. -/
def copyDataToResults (topics : NamesAndTypes) : Program ResultBlock (RmwRet × ResultArrays) :=
  let topics := topics.toList.map fun topic => (topic.1, topic.2.toList)
  if topics = [] then return (.ok, .zero)
  else do
    let (ret, results) ← Rcutils.namesAndTypesInit topics.length
    if ret ≠ .ok then return (ret, results)
    else storeTopics demangleType 0 topics results

end Loops

/-! ## `rmw_get_node_names` -/

/-- The label `fail`. -/
def failNodeNames (message : String) (nodeNames nodeNamespaces : StringArray) :
    Program ResultBlock (RmwRet × StringArray × StringArray) := do
  let (_, nodeNames) ← Rcutils.stringArrayFini nodeNames
  let (_, nodeNamespaces) ← Rcutils.stringArrayFini nodeNamespaces
  return (.error message, nodeNames, nodeNamespaces)

/-- The loop over the nodes. -/
def storeNodes :
    Nat → List Node → StringArray → StringArray →
      Program ResultBlock (RmwRet × StringArray × StringArray)
  | _, [], nodeNames, nodeNamespaces => return (.ok, nodeNames, nodeNamespaces)
  | i, node :: nodes, nodeNames, nodeNamespaces => do
      let name ← Rcutils.strdup (cStr node.name)
      let nodeNames ← nodeNames.store i name
      let namespace_ ← Rcutils.strdup (cStr node.namespace_)
      let nodeNamespaces ← nodeNamespaces.store i namespace_
      if name = none ∨ namespace_ = none then
        failNodeNames "failed to allocate memory for node name" nodeNames nodeNamespaces
      else storeNodes (i + 1) nodes nodeNames nodeNamespaces

/-- `rmw_get_node_names` for a node of this implementation, on zero-initialized arrays. -/
def rmwGetNodeNames (impl : CustomNodeInfo) :
    Program ResultBlock (RmwRet × StringArray × StringArray) := do
  let nodes := impl.discoveredNodes.getDiscoveredNodes
  let (ret, nodeNames) ← Rcutils.stringArrayInit nodes.length
  if ret ≠ .ok then failNodeNames "%s" nodeNames .zero
  else do
    let (ret, nodeNamespaces) ← Rcutils.stringArrayInit nodes.length
    if ret ≠ .ok then failNodeNames "%s" nodeNames nodeNamespaces
    else storeNodes 0 nodes nodeNames nodeNamespaces

end Functions

/-! ## Filling arrays -/

section Fill

/-- The strings so far are copies of the texts, and the pointers behind them are null. -/
def StringArray.Filled (array : StringArray) (texts : List StdString) (rest : Nat) : Prop :=
  ∃ copies : List CopiedString, array.data = copies.map some ++ List.replicate rest none ∧
    copies.map CopiedString.text = texts

theorem reduceOption_filled (copies : List CopiedString) (rest : Nat) :
    (copies.map some ++ List.replicate rest none).reduceOption = copies := by
  simp [List.reduceOption]

variable {array : StringArray} {texts : List StdString} {rest : Nat}

theorem StringArray.filled_of_data (hData : array.data = List.replicate rest none) :
    array.Filled [] rest :=
  ⟨[], by simpa using hData, rfl⟩

/-- A string put into the first null pointer. -/
theorem StringArray.Filled.store (hFilled : array.Filled texts (rest + 1)) (copy : CopiedString) :
    ∃ stored : StringArray, array.store texts.length (some copy) = pure stored ∧
      stored.Filled (texts ++ [copy.text]) rest ∧ stored.owns = {copy.block} + array.owns := by
  obtain ⟨copies, hData, hTexts⟩ := hFilled
  have hLength : texts.length = copies.length := by
    rw [← hTexts, List.length_map]
  have hSet : array.data.set copies.length (some copy) =
      (copies ++ [copy]).map some ++ List.replicate rest none := by
    rw [hData, List.replicate_succ, List.set_append_right _ _ (by simp)]
    simp
  refine ⟨{ array with data := array.data.set copies.length (some copy) }, ?_, ?_, ?_⟩
  · rw [StringArray.store, hLength, if_pos (by simp [hData])]
  · exact ⟨copies ++ [copy], hSet, by simp [hTexts]⟩
  · have hBlocks : (((copies ++ [copy]).map CopiedString.block : List _) : Multiset _) =
        {copy.block} + ((copies.map CopiedString.block : List _) : Multiset _) := by
      rw [List.map_append, ← Multiset.coe_add, add_comm]
      rfl
    show owned array.block + (((array.data.set copies.length (some copy)).reduceOption.map
      CopiedString.block : List _) : Multiset _) = _
    rw [hSet, reduceOption_filled, hBlocks, StringArray.owns, hData, reduceOption_filled,
      add_left_comm]

/-- A null pointer put there changes nothing. -/
theorem StringArray.Filled.store_none (hFilled : array.Filled texts (rest + 1)) :
    array.store texts.length none = pure array := by
  obtain ⟨copies, hData, hTexts⟩ := hFilled
  have hLength : texts.length = copies.length := by
    rw [← hTexts, List.length_map]
  have hSet : array.data.set copies.length none = array.data := by
    rw [hData, List.replicate_succ, List.set_append_right _ _ (by simp)]
    simp
  rw [StringArray.store, hLength, if_pos (by simp [hData]), hSet]

/-- A copy or null, stored in the first null pointer: null leaves the array as it is. -/
theorem StringArray.Filled.store_any
    (hFilled : array.Filled texts (rest + 1)) (string : Option CopiedString) :
    ∃ stored : StringArray, array.store texts.length string = pure stored ∧
      stored.owns = owned (string.map CopiedString.block) + array.owns ∧
      ∀ copy ∈ string, stored.Filled (texts ++ [copy.text]) rest := by
  cases string with
  | none => exact ⟨array, hFilled.store_none, (zero_add _).symm, fun copy hNone => nomatch hNone⟩
  | some copy =>
      obtain ⟨stored, hStore, hStored, hOwns⟩ := hFilled.store copy
      refine ⟨stored, hStore, hOwns, fun other hOther => ?_⟩
      obtain rfl := Option.some.inj hOther
      exact hStored

/-- The names and the arrays of the first topics, with null pointers and empty arrays
behind them. -/
structure ResultArrays.Filled (results : ResultArrays) (topics : RmwNamesAndTypes) (rest : Nat) :
    Prop where
  names : results.names.Filled (topics.map Prod.fst) rest
  types : ∃ arrays : List StringArray, results.types = arrays ++ List.replicate rest .zero ∧
    List.Forall₂ (fun array topic => StringArray.Filled array topic.2 0) arrays topics

variable {results : ResultArrays} {front back : List StringArray}

theorem ResultArrays.storeName_eq (hNames : results.names.Filled texts (rest + 1))
    (copy : CopiedString) :
    ∃ names : StringArray,
      results.storeName texts.length copy = pure { results with names } ∧
      names.Filled (texts ++ [copy.text]) rest ∧
      ResultArrays.owns { results with names } = {copy.block} + results.owns := by
  obtain ⟨names, hStore, hFilled, hOwns⟩ := hNames.store copy
  refine ⟨names, ?_, hFilled, ?_⟩
  · rw [storeName, hStore]
    rfl
  · simp only [owns, hOwns, add_assoc]

/-- Another array in the place of one of the arrays. -/
theorem ResultArrays.owns_set {array' : StringArray}
    (hTypes : results.types = front ++ array :: back)
    {more : Multiset (Block ResultBlock)} (hOwns : array'.owns = more + array.owns) :
    ResultArrays.owns { results with types := front ++ array' :: back } = more + results.owns := by
  simp only [owns, hTypes, List.map_append, List.map_cons, List.sum_append, List.sum_cons, hOwns]
  ac_rfl

theorem ResultArrays.storeArray_eq (hTypes : results.types = front ++ .zero :: back)
    (array : StringArray) :
    results.storeArray front.length array =
        pure { results with types := front ++ array :: back } ∧
      ResultArrays.owns { results with types := front ++ array :: back } =
        array.owns + results.owns := by
  refine ⟨?_, owns_set hTypes (add_zero _).symm⟩
  rw [storeArray, if_pos (by simp [hTypes]), hTypes, List.set_append_right _ _ le_rfl]
  simp

theorem ResultArrays.storeType_eq (hTypes : results.types = front ++ array :: back)
    (hFilled : array.Filled texts (rest + 1)) (copy : CopiedString) :
    ∃ stored : StringArray,
      results.storeType front.length texts.length copy =
        pure { results with types := front ++ stored :: back } ∧
      stored.Filled (texts ++ [copy.text]) rest ∧
      ResultArrays.owns { results with types := front ++ stored :: back } =
        {copy.block} + results.owns := by
  obtain ⟨stored, hStore, hStored, hOwns⟩ := hFilled.store copy
  refine ⟨stored, ?_, hStored, owns_set hTypes hOwns⟩
  have hAt : results.types[front.length]? = some array := by simp [hTypes]
  have hSet : results.types.set front.length stored = front ++ stored :: back := by
    rw [hTypes, List.set_append_right _ _ le_rfl]
    simp
  simp only [storeType, hAt, hStore, pure_bind, hSet]

end Fill

/-! ## All or nothing -/

/-- A function that succeeds has made what it should and owns that, and one that fails owns
nothing. -/
def AllOrNothing {ρ : Type} (owns : ρ → Multiset (Block ResultBlock)) (made : ρ → Prop)
    (result : RmwRet × ρ) (left : Multiset (Block ResultBlock)) : Prop :=
  left = owns result.2 ∧ if result.1 = .ok then made result.2 else owns result.2 = 0

section Specs

variable [Rcutils] [Rcutils.Lawful] {results : ResultArrays} {made : ResultArrays → Prop}

theorem failCleanup_spec {ret : RmwRet} (hFailed : ret ≠ .ok) :
    Triple results.owns (failCleanup ret results) (AllOrNothing ResultArrays.owns made) := by
  refine (Rcutils.Lawful.namesAndTypesFini results).bind fun result left hLeft => ?_
  refine Triple.pure ⟨?_, ?_⟩
  · rw [hLeft.1, hLeft.2]
  · rw [if_neg hFailed]
    exact hLeft.2

variable (demangleType : StdString → StdString)

theorem storeTypes_spec {front back : List StringArray} {array : StringArray}
    {types done : List StdString} (hTypes : results.types = front ++ array :: back)
    (hFilled : array.Filled done types.length) :
    Triple results.owns (storeTypes demangleType front.length done.length types results)
      (AllOrNothing ResultArrays.owns fun after => after.names = results.names ∧
        ∃ filled : StringArray, after.types = front ++ filled :: back ∧
          filled.Filled (done ++ types.map fun type => cStr (demangleType type)) 0) := by
  induction types generalizing results array done with
  | nil =>
      refine Triple.pure ⟨rfl, ?_⟩
      rw [if_pos rfl, List.map_nil, List.append_nil]
      exact ⟨rfl, array, hTypes, hFilled⟩
  | cons type types ih =>
      refine ((Rcutils.Lawful.strdup _).adds results.owns).bind ?_
      rintro typeName left ⟨got, ⟨rfl, hText⟩, rfl⟩
      cases typeName with
      | none =>
          simp only [Option.map_none, Ownership.owned_none, zero_add]
          exact failCleanup_spec (by simp)
      | some typeName =>
          have hCopy : typeName.text = cStr (demangleType type) := hText typeName rfl
          obtain ⟨stored, hStore, hStored, hOwns⟩ :=
            ResultArrays.storeType_eq hTypes hFilled typeName
          rw [hCopy] at hStored
          have hTypes' : ResultArrays.types { results with types := front ++ stored :: back } =
              front ++ stored :: back := rfl
          have hRest := ih hTypes' hStored
          rw [hOwns, List.length_append] at hRest
          simp only [hStore, pure_bind]
          refine hRest.mono fun result left hAll => ?_
          rwa [List.append_assoc] at hAll

/-- What is to be reported of a topic. -/
def copied (topic : StdString × List StdString) : StdString × List StdString :=
  (cStr topic.1, topic.2.map fun type => cStr (demangleType type))

theorem storeTopics_spec {topics : List (StdString × List StdString)} {done : RmwNamesAndTypes}
    (hFilled : results.Filled done topics.length) :
    Triple results.owns (storeTopics demangleType done.length topics results)
      (AllOrNothing ResultArrays.owns fun after =>
        after.Filled (done ++ topics.map (copied demangleType)) 0) := by
  induction topics generalizing results done with
  | nil =>
      refine Triple.pure ⟨rfl, ?_⟩
      rw [if_pos rfl, List.map_nil, List.append_nil]
      exact hFilled
  | cons topic topics ih =>
      obtain ⟨hNames, arrays, hTypes, hArrays⟩ := hFilled
      refine ((Rcutils.Lawful.strdup _).adds results.owns).bind ?_
      rintro topicName left ⟨got, ⟨rfl, hText⟩, rfl⟩
      cases topicName with
      | none =>
          simp only [Option.map_none, Ownership.owned_none, zero_add]
          exact failCleanup_spec (by simp)
      | some topicName =>
          have hCopy : topicName.text = cStr topic.1 := hText topicName rfl
          obtain ⟨names, hStoreName, hNamesStored, hOwns⟩ :=
            ResultArrays.storeName_eq hNames topicName
          rw [List.length_map] at hStoreName
          simp only [hStoreName, pure_bind]
          have hOwned : owned (Option.map CopiedString.block (some topicName)) + results.owns =
              ResultArrays.owns { results with names } := hOwns.symm
          rw [hOwned]
          refine ((Rcutils.Lawful.stringArrayInit topic.2.length).adds _).bind ?_
          rintro ⟨ret, array⟩ left ⟨got, ⟨rfl, hInit⟩, rfl⟩
          have hArraysLength : arrays.length = done.length := hArrays.length_eq
          obtain ⟨hStoreArray, hArrayOwns⟩ :=
            @ResultArrays.storeArray_eq { results with names } arrays
              (List.replicate topics.length .zero) hTypes array
          rw [hArraysLength] at hStoreArray
          simp only [hStoreArray, pure_bind]
          dsimp only at hInit ⊢
          rw [← hArrayOwns]
          by_cases hRet : ret = .ok
          · rw [if_pos hRet] at hInit
            rw [if_neg (not_not.mpr hRet)]
            have hTypesNow : ResultArrays.types { results with
                names, types := arrays ++ array :: List.replicate topics.length .zero } =
                  arrays ++ array :: List.replicate topics.length .zero := rfl
            have hLoop := storeTypes_spec demangleType hTypesNow
              (StringArray.filled_of_data hInit)
            rw [hArraysLength, List.length_nil] at hLoop
            refine hLoop.bind ?_
            rintro ⟨ret', after⟩ left ⟨rfl, hAfter⟩
            dsimp only at hAfter ⊢
            by_cases hRet' : ret' = .ok
            · rw [if_pos hRet'] at hAfter
              rw [if_neg (not_not.mpr hRet')]
              obtain ⟨hSameNames, filled, hAfterTypes, hTypeTexts⟩ := hAfter
              have hMore : after.Filled (done ++ [copied demangleType topic]) topics.length := by
                refine ⟨?_, arrays ++ [filled], ?_, ?_⟩
                · rw [hSameNames, List.map_append]
                  rw [hCopy] at hNamesStored
                  exact hNamesStored
                · rw [hAfterTypes]
                  simp
                · exact List.rel_append hArrays (.cons hTypeTexts .nil)
              have hRest := ih hMore
              rw [List.length_append, List.append_assoc] at hRest
              exact hRest
            · rw [if_neg hRet'] at hAfter
              rw [if_pos hRet']
              exact Triple.pure ⟨rfl, by rw [if_neg hRet']; exact hAfter⟩
          · rw [if_pos hRet]
            exact failCleanup_spec hRet

/-- `_copy_data_to_results` makes what the query reports, or leaves nothing. -/
theorem copyDataToResults_spec (topics : NamesAndTypes) :
    Triple 0 (copyDataToResults demangleType topics)
      (AllOrNothing ResultArrays.owns fun results =>
        results.Filled (Discovery.copyDataToResults topics demangleType) 0) := by
  have hCopied : (topics.toList.map fun topic => (topic.1, topic.2.toList)).map
      (copied demangleType) = Discovery.copyDataToResults topics demangleType := by
    rw [List.map_map]
    rfl
  unfold copyDataToResults
  rw [← hCopied]
  generalize (topics.toList.map fun topic => (topic.1, topic.2.toList)) = topics
  dsimp only
  split_ifs with hEmpty
  · subst hEmpty
    refine Triple.pure ⟨rfl, ?_⟩
    rw [if_pos rfl]
    exact ⟨StringArray.filled_of_data rfl, [], rfl, .nil⟩
  · refine (Rcutils.Lawful.namesAndTypesInit topics.length).bind ?_
    rintro ⟨ret, results⟩ left ⟨rfl, hInit⟩
    dsimp only at hInit ⊢
    by_cases hRet : ret = .ok
    · rw [if_pos hRet] at hInit
      rw [if_neg (not_not.mpr hRet)]
      have hNone : results.Filled [] topics.length :=
        ⟨StringArray.filled_of_data hInit.1, [], hInit.2, .nil⟩
      have hLoop := storeTopics_spec demangleType hNone
      rw [List.length_nil, List.nil_append] at hLoop
      exact hLoop
    · rw [if_pos hRet]
      exact Triple.pure ⟨rfl, by rw [if_neg hRet] at hInit ⊢; exact hInit⟩

end Specs

/-! ### Names of nodes -/

section NodeNames

variable [Rcutils] [Rcutils.Lawful] {nodeNames nodeNamespaces : StringArray}
  {made : StringArray × StringArray → Prop}

/-- What the two arrays of `rmw_get_node_names` own. -/
def ownedByBoth (arrays : StringArray × StringArray) : Multiset (Block ResultBlock) :=
  arrays.1.owns + arrays.2.owns

theorem failNodeNames_spec (message : String) :
    Triple (nodeNames.owns + nodeNamespaces.owns) (failNodeNames message nodeNames nodeNamespaces)
      (AllOrNothing ownedByBoth made) := by
  refine ((Rcutils.Lawful.stringArrayFini nodeNames).frame _).bind ?_
  rintro ⟨ret, nodeNames⟩ left ⟨rest, ⟨rfl, hNames⟩, rfl⟩
  rw [zero_add]
  refine (Rcutils.Lawful.stringArrayFini nodeNamespaces).bind ?_
  rintro ⟨ret', nodeNamespaces⟩ left ⟨rfl, hNamespaces⟩
  have hNothing : ownedByBoth (nodeNames, nodeNamespaces) = 0 := by
    rw [ownedByBoth, hNames, hNamespaces, add_zero]
  exact Triple.pure ⟨hNothing.symm, by rw [if_neg (by simp)]; exact hNothing⟩

theorem storeNodes_spec {nodes : List Node} {names namespaces : List StdString}
    (hNames : nodeNames.Filled names nodes.length)
    (hNamespaces : nodeNamespaces.Filled namespaces nodes.length)
    (hLength : namespaces.length = names.length) :
    Triple (nodeNames.owns + nodeNamespaces.owns)
      (storeNodes names.length nodes nodeNames nodeNamespaces)
      (AllOrNothing ownedByBoth fun arrays =>
        arrays.1.Filled (names ++ nodes.map fun node => cStr node.name) 0 ∧
          arrays.2.Filled (namespaces ++ nodes.map fun node => cStr node.namespace_) 0) := by
  induction nodes generalizing nodeNames nodeNamespaces names namespaces with
  | nil =>
      refine Triple.pure ⟨rfl, ?_⟩
      rw [if_pos rfl, List.map_nil, List.map_nil, List.append_nil, List.append_nil]
      exact ⟨hNames, hNamespaces⟩
  | cons node nodes ih =>
      refine ((Rcutils.Lawful.strdup _).adds _).bind ?_
      rintro name left ⟨got, ⟨rfl, hName⟩, rfl⟩
      obtain ⟨nodeNames', hStoreName, hOwnsName, hMoreNames⟩ := hNames.store_any name
      simp only [hStoreName, pure_bind]
      rw [← add_assoc, ← hOwnsName]
      refine ((Rcutils.Lawful.strdup _).adds _).bind ?_
      rintro namespace_ left ⟨got, ⟨rfl, hNamespace⟩, rfl⟩
      obtain ⟨nodeNamespaces', hStoreNamespace, hOwnsNamespace, hMoreNamespaces⟩ :=
        hNamespaces.store_any namespace_
      rw [hLength] at hStoreNamespace
      simp only [hStoreNamespace, pure_bind]
      rw [add_left_comm, ← hOwnsNamespace]
      -- Both strings have been asked for and stored before either is looked at.
      split_ifs with hMissing
      · exact failNodeNames_spec _
      · rw [not_or] at hMissing
        obtain ⟨copy, rfl⟩ := Option.ne_none_iff_exists'.mp hMissing.1
        obtain ⟨copy', rfl⟩ := Option.ne_none_iff_exists'.mp hMissing.2
        have hNames' := hMoreNames copy rfl
        have hNamespaces' := hMoreNamespaces copy' rfl
        rw [hName copy rfl] at hNames'
        rw [hNamespace copy' rfl] at hNamespaces'
        have hRest := ih hNames' hNamespaces' (by simp [hLength])
        rw [List.length_append, List.append_assoc, List.append_assoc] at hRest
        exact hRest

/-- `rmw_get_node_names` makes what is reported of the nodes, or leaves nothing. -/
theorem rmwGetNodeNames_spec (impl : CustomNodeInfo) :
    Triple 0 (rmwGetNodeNames impl) (AllOrNothing ownedByBoth fun arrays =>
      arrays.1.Filled (impl.rmwGetNodeNames.map Prod.fst) 0 ∧
        arrays.2.Filled (impl.rmwGetNodeNames.map Prod.snd) 0) := by
  unfold rmwGetNodeNames CustomNodeInfo.rmwGetNodeNames
  generalize impl.discoveredNodes.getDiscoveredNodes = nodes
  rw [List.map_map, List.map_map]
  refine (Rcutils.Lawful.stringArrayInit nodes.length).bind ?_
  rintro ⟨ret, nodeNames⟩ left ⟨rfl, hInit⟩
  dsimp only at hInit ⊢
  by_cases hRet : ret = .ok
  · rw [if_pos hRet] at hInit
    rw [if_neg (not_not.mpr hRet)]
    refine ((Rcutils.Lawful.stringArrayInit nodes.length).adds _).bind ?_
    rintro ⟨ret', nodeNamespaces⟩ left ⟨got, ⟨rfl, hInit'⟩, rfl⟩
    dsimp only at hInit' ⊢
    rw [add_comm]
    by_cases hRet' : ret' = .ok
    · rw [if_pos hRet'] at hInit'
      rw [if_neg (not_not.mpr hRet')]
      have hLoop := storeNodes_spec (StringArray.filled_of_data hInit)
        (StringArray.filled_of_data hInit') rfl
      rw [List.length_nil, List.nil_append, List.nil_append] at hLoop
      exact hLoop
    · rw [if_pos hRet']
      exact failNodeNames_spec _
  · -- The second array is still as the caller has passed it.
    rw [if_pos hRet]
    have hOwned : nodeNames.owns + StringArray.zero.owns = nodeNames.owns := add_zero _
    rw [← hOwned]
    exact failNodeNames_spec _

end NodeNames

/-- **Everything or nothing.**  Whichever allocations fail, a query about the graph returns
with what it reports, and the caller owns all that has been allocated; or it returns an
error, and everything has been given back. -/
theorem queries_all_or_nothing [Rcutils] [Rcutils.Lawful] :
    (∀ (topics : NamesAndTypes) (demangleType : StdString → StdString),
      Triple 0 (copyDataToResults demangleType topics)
        (AllOrNothing ResultArrays.owns fun results =>
          results.Filled (Discovery.copyDataToResults topics demangleType) 0)) ∧
    ∀ impl : CustomNodeInfo,
      Triple 0 (rmwGetNodeNames impl) (AllOrNothing ownedByBoth fun arrays =>
        arrays.1.Filled (impl.rmwGetNodeNames.map Prod.fst) 0 ∧
          arrays.2.Filled (impl.rmwGetNodeNames.map Prod.snd) 0) :=
  ⟨fun topics demangleType => copyDataToResults_spec demangleType topics, rmwGetNodeNames_spec⟩

/-! ## An allocator that runs out -/

section Frugal

/-- The allocator has room for so many blocks. -/
def allocate (room : Nat) (kind : ResultBlock) :
    Program ResultBlock (Option (Block ResultBlock)) :=
  fun heap => tryAcquire (decide (heap.next < room)) kind heap

def finiStringArray (array : StringArray) : Program ResultBlock Unit := do
  Ownership.releaseAll (array.data.reduceOption.map CopiedString.block)
  releaseIfAny array.block

def finiStringArrays : List StringArray → Program ResultBlock Unit
  | [] => pure ()
  | array :: arrays => do
      finiStringArray array
      finiStringArrays arrays

@[reducible] def frugalRcutils (room : Nat) : Rcutils where
  strdup text := do
    let block ← allocate room .string
    return block.map fun block => { block, text }
  stringArrayInit size := do
    let block ← allocate room .stringArray
    match block with
    | none => return (.error "failed to allocator string array", .zero)
    | some block => return (.ok, { block := some block, data := List.replicate size none })
  stringArrayFini array := do
    finiStringArray array
    return (.ok, .zero)
  namesAndTypesInit size := do
    let names ← allocate room .stringArray
    let types ← allocate room .typesArray
    if names = none ∨ types = none then do
      releaseIfAny names
      releaseIfAny types
      return (.error "failed to allocate memory for types", .zero)
    else
      return (.ok, {
        names := { block := names, data := List.replicate size none }
        block := types
        types := List.replicate size .zero })
  namesAndTypesFini results := do
    finiStringArray results.names
    releaseIfAny results.block
    finiStringArrays results.types
    return (.ok, .zero)

theorem allocate_spec (room : Nat) (kind : ResultBlock) :
    Triple 0 (allocate room kind) fun pointer left => left = owned pointer := by
  have hAll : ∀ succeeds, Triple 0 (tryAcquire succeeds kind) fun pointer left =>
      left = owned pointer := by
    intro succeeds
    refine (Triple.tryAcquire succeeds kind).mono fun pointer left hLeft => ?_
    rw [hLeft.1, add_zero]
  exact Triple.ofHeap (fun heap => decide (heap.next < room)) hAll

theorem finiStringArray_spec (array : StringArray) :
    GivesBack array.owns (finiStringArray array) := by
  have hBoth := (GivesBack.releaseAll (array.data.reduceOption.map CopiedString.block)).bind
    (GivesBack.releaseIfAny array.block)
  rwa [add_comm] at hBoth

theorem finiStringArrays_spec (arrays : List StringArray) :
    GivesBack (arrays.map StringArray.owns).sum (finiStringArrays arrays) := by
  induction arrays with
  | nil => exact GivesBack.pure
  | cons array arrays ih => exact (finiStringArray_spec array).bind ih

theorem owns_replicate (block : Option (Block ResultBlock)) (size : Nat) :
    StringArray.owns { block, data := List.replicate size none } = owned block := by
  simp [StringArray.owns, List.reduceOption]

theorem frugalRcutils_lawful (room : Nat) : @Rcutils.Lawful (frugalRcutils room) := by
  let _ := frugalRcutils room
  constructor
  · intro text
    refine (allocate_spec room .string).bind fun block left hLeft => ?_
    refine Triple.pure ⟨?_, ?_⟩
    · rw [hLeft]
      cases block <;> rfl
    · intro copy hCopy
      obtain ⟨block, -, rfl⟩ := Option.map_eq_some_iff.mp hCopy
      rfl
  · intro size
    refine (allocate_spec room .stringArray).bind fun block left hLeft => ?_
    subst hLeft
    cases block with
    | none => exact Triple.pure ⟨rfl, rfl⟩
    | some block => exact Triple.pure ⟨(owns_replicate _ _).symm, rfl⟩
  · intro array
    refine (finiStringArray_spec array).all.bind fun _ left hLeft => ?_
    exact Triple.pure ⟨hLeft, rfl⟩
  · intro size
    refine (allocate_spec room .stringArray).bind fun names left hLeft => ?_
    subst hLeft
    refine ((allocate_spec room .typesArray).adds _).bind fun types left hLeft => ?_
    obtain ⟨got, rfl, rfl⟩ := hLeft
    split_ifs
    · rw [add_comm]
      exact (GivesBack.releaseIfAny names).andThen ((GivesBack.releaseIfAny types).all.bind
        fun _ left hLeft => Triple.pure ⟨hLeft, rfl⟩)
    · refine Triple.pure ⟨?_, rfl, rfl⟩
      simp [ResultArrays.owns, StringArray.owns, StringArray.zero,
        List.reduceOption, add_comm]
  · intro results
    rw [ResultArrays.owns, add_assoc]
    exact (finiStringArray_spec results.names).andThen ((GivesBack.releaseIfAny _).andThen
      ((finiStringArrays_spec results.types).all.bind fun _ left hLeft => Triple.pure ⟨hLeft, rfl⟩))

/-- One topic of one type. -/
def oneTopic : NamesAndTypes :=
  (∅ : NamesAndTypes).addTopic { topic := Discovery.bytesOf "/t", types := [[0x54]] }

/-- With room for the two arrays, the name and the array of its types, the name of the type
does not fit, and the other four blocks are given back. -/
theorem oneTopic_given_back :
    let _ := frugalRcutils 4
    let run := copyDataToResults id oneTopic Heap.empty
    run.1.1 = .error "failed to allocate memory for type name" ∧ run.2.next = 4 ∧
      run.2.held = 0 ∧ run.2.badReleases = 0 := by
  let _ := frugalRcutils 4
  have _ := frugalRcutils_lawful 4
  have hFailed : (copyDataToResults id oneTopic Heap.empty).1.1 =
      .error "failed to allocate memory for type name" := by decide
  obtain ⟨left, ⟨hLeft, hAll⟩, hHeld, -, hGood⟩ :=
    queries_all_or_nothing.1 oneTopic id 0 Heap.empty Heap.empty_valid rfl
  rw [if_neg (by rw [hFailed]; simp)] at hAll
  rw [hLeft, hAll, add_zero] at hHeld
  exact ⟨hFailed, by decide, hHeld, hGood⟩

end Frugal

end Lifecycle
end RmwDps
