import Ds3.Basic
import Ds3.Numbers
import Ds3.Requests
import Ds3.Xml.Tree

/-! # Decoding service listings, bucket listings and bulk manifests

Each decoder is a loop over a node's children (or attributes) that starts from
a zeroed record and dispatches on the child's name.  Two reading disciplines
alternate in the source.  The guarded branches skip a leaf whose text is `NULL`
(`if (text == NULL) continue;`); the unguarded ones pass the text straight to
`strlen` or `strtoul`, which read through the null pointer when the leaf is
empty.  `keepText` and `copyText`/`strtoulText` are these two disciplines, and
each branch below uses the one its source branch uses.

`_parse_buckets` takes every child of `Buckets` for a bucket, with no test of
its name.  The bulk decoder tests names but not node types, so it reads a
processing instruction `<?Objects …?>` as a chunk; `bulkResponseBody_decodes_by_name`
describes the whole bulk decoder in terms of names. -/

set_option autoImplicit false

namespace Ds3.Xml

open Ds3 Ds3.Requests

/-! ## Reading leaves -/

/-- Reads a leaf as the unguarded branches do, `g_strdup (text)` and then
`strlen (text)`: a `NULL` text is read through. -/
def copyText : Option String → Outcome (List Char)
  | some text => .returns text.toList
  | none => .nullDeref

/-- Reads a leaf with `strtoul` and no guard: a `NULL` text is read through. -/
def strtoulText : Option String → Outcome Nat
  | some text => .returns (strtoul text.toList)
  | none => .nullDeref

/-- Reads a leaf as the guarded branches do: a `NULL` text leaves the field as
it was. -/
def keepText (text : Option String) (field : Option (List Char)) : Option (List Char) :=
  match text with
  | some text => some text.toList
  | none => field

/-- Reads a number as the guarded branches do: a `NULL` text leaves the field as
it was, any other text is read by `strtoul`. -/
def keepNumber (text : Option String) (field : Nat) : Nat :=
  match text with
  | some text => strtoul text.toList
  | none => field

theorem keepNumber_lt (text : Option String) {field : Nat} (bound : field < 2 ^ 64) :
    keepNumber text field < 2 ^ 64 := by
  cases text with
  | none => exact bound
  | some text => exact strtoul_lt _

/-- Models `strncmp (s1, s2, n) == 0`: the C strings agree on their first `n`
characters. -/
def strncmpEq (s1 s2 : List Char) (n : Nat) : Bool := (cString s1).take n == (cString s2).take n

/-! ## Service listing -/

/-- Modelled from the spec: `ds3_owner` (declared in a header that is not under src/). -/
structure Owner where
  name : Option (List Char)
  id : Option (List Char)
deriving DecidableEq

/-- Modelled from the spec: `ds3_bucket`. -/
structure Bucket where
  name : Option (List Char)
  creationDate : Option (List Char)
deriving DecidableEq

/-- Modelled from the spec: `ds3_get_service_response`; `num_buckets` is the
length of `buckets`. -/
structure GetServiceResponse where
  owner : Option Owner
  buckets : List Bucket
deriving DecidableEq

/-- One pass of the loop in `_parse_owner`. -/
def parseOwnerChild (owner : Owner) (childNode : XmlNode) : Outcome Owner :=
  if childNode.name = "DisplayName" then
    (fun text => { owner with name := some text }) <$> copyText (nodeListGetString childNode.children)
  else if childNode.name = "ID" then
    (fun text => { owner with id := some text }) <$> copyText (nodeListGetString childNode.children)
  else pure owner

/-- Models `_parse_owner`. -/
def parseOwner (ownerNode : XmlNode) : Outcome Owner :=
  ownerNode.children.foldlM parseOwnerChild ⟨none, none⟩

/-- One pass of the inner loop in `_parse_buckets`. -/
def parseBucketChild (bucket : Bucket) (dataPtr : XmlNode) : Outcome Bucket :=
  if dataPtr.name = "CreationDate" then
    (fun text => { bucket with creationDate := some text }) <$>
      copyText (nodeListGetString dataPtr.children)
  else if dataPtr.name = "Name" then
    (fun text => { bucket with name := some text }) <$> copyText (nodeListGetString dataPtr.children)
  else pure bucket

/-- Models `_parse_buckets`: every child of `Buckets` is appended as a bucket. -/
def parseBuckets (bucketsNode : XmlNode) : Outcome (List Bucket) :=
  bucketsNode.children.foldlM
    (fun array curr => (fun bucket => array ++ [bucket]) <$>
      curr.children.foldlM parseBucketChild ⟨none, none⟩) []

/-- One pass of the loop of `ds3_get_service` over the root's children. -/
def getServiceChild (response : GetServiceResponse) (childNode : XmlNode) :
    Outcome GetServiceResponse :=
  if childNode.name = "Buckets" then
    (fun buckets => { response with buckets }) <$> parseBuckets childNode
  else if childNode.name = "Owner" then
    (fun owner => { response with owner := some owner }) <$> parseOwner childNode
  else pure response

/-- The part of `ds3_get_service` after the root check. -/
def getServiceBody (root : XmlNode) : Outcome GetServiceResponse :=
  root.children.foldlM getServiceChild ⟨none, []⟩

/-- Whitespace between the `Bucket` elements of a listing is read as buckets
with no name, and an empty bucket name aborts the decoding. -/
theorem getServiceBody_whitespace_and_empty_name :
    getServiceBody (.element "ListAllMyBucketsResult" []
        [.element "Buckets" []
          [.text "\n  ",
            .element "Bucket" [] [.element "Name" [] [.text "b"],
              .element "CreationDate" [] [.text "d"]],
            .text "\n"]]) =
        .returns ⟨none, [⟨none, none⟩, ⟨some "b".toList, some "d".toList⟩, ⟨none, none⟩]⟩ ∧
      getServiceBody (.element "ListAllMyBucketsResult" []
          [.element "Buckets" [] [.element "Bucket" [] [.element "Name" [] []]]]) = .nullDeref := by
  decide

/-! ## Bucket listing -/

/-- Modelled from the spec: `ds3_object`. -/
structure Ds3Object where
  name : Option (List Char)
  etag : Option (List Char)
  lastModified : Option (List Char)
  storageClass : Option (List Char)
  size : Nat
  owner : Option Owner
deriving DecidableEq

/-- Modelled from the spec: `ds3_get_bucket_response`; `num_objects` is the length
of `objects`, and the source's `prefix` field is `keyPrefix`. -/
structure GetBucketResponse where
  objects : List Ds3Object
  creationDate : Option (List Char)
  isTruncated : Bool
  marker : Option (List Char)
  maxKeys : Nat
  name : Option (List Char)
  delimiter : Option (List Char)
  nextMarker : Option (List Char)
  keyPrefix : Option (List Char)
deriving DecidableEq

/-- One pass of the loop in `_parse_object`. -/
def parseObjectChild (object : Ds3Object) (childNode : XmlNode) : Outcome Ds3Object :=
  let text := nodeListGetString childNode.children
  if childNode.name = "Key" then (fun name => { object with name := some name }) <$> copyText text
  else if childNode.name = "ETag" then pure { object with etag := keepText text object.etag }
  else if childNode.name = "LastModified" then
    pure { object with lastModified := keepText text object.lastModified }
  else if childNode.name = "StorageClass" then
    pure { object with storageClass := keepText text object.storageClass }
  else if childNode.name = "Size" then (fun size => { object with size }) <$> strtoulText text
  else if childNode.name = "Owner" then
    (fun owner => { object with owner := some owner }) <$> parseOwner childNode
  else pure object

/-- Models `_parse_object`. -/
def parseObject (contentsNode : XmlNode) : Outcome Ds3Object :=
  contentsNode.children.foldlM parseObjectChild ⟨none, none, none, none, 0, none⟩

/-- One pass of the loop of `ds3_get_bucket` over the root's children. -/
def getBucketChild (response : GetBucketResponse) (childNode : XmlNode) :
    Outcome GetBucketResponse :=
  let text := nodeListGetString childNode.children
  if childNode.name = "Contents" then
    (fun object => { response with objects := response.objects ++ [object] }) <$> parseObject childNode
  else if childNode.name = "CreationDate" then
    pure { response with creationDate := keepText text response.creationDate }
  else if childNode.name = "IsTruncated" then
    pure (match text with
      | none => response
      | some text => { response with isTruncated := strncmpEq text.toList "true".toList 4 })
  else if childNode.name = "Marker" then pure { response with marker := keepText text response.marker }
  else if childNode.name = "MaxKeys" then pure { response with maxKeys := keepNumber text response.maxKeys }
  else if childNode.name = "Name" then pure { response with name := keepText text response.name }
  else if childNode.name = "Delimiter" then
    pure { response with delimiter := keepText text response.delimiter }
  else if childNode.name = "NextMarker" then
    pure { response with nextMarker := keepText text response.nextMarker }
  else if childNode.name = "Prefix" then
    pure { response with keyPrefix := keepText text response.keyPrefix }
  else pure response

/-- The part of `ds3_get_bucket` after the root check. -/
def getBucketBody (root : XmlNode) : Outcome GetBucketResponse :=
  root.children.foldlM getBucketChild ⟨[], none, false, none, 0, none, none, none, none⟩

/-- An empty `Key` or `Size` of a listed object aborts the decoding, and an
`IsTruncated` text that merely starts with `true` reads as true. -/
theorem getBucketBody_empty_leaves_and_trueish :
    getBucketBody (.element "ListBucketResult" []
        [.element "Contents" [] [.element "Key" [] []]]) = .nullDeref ∧
      getBucketBody (.element "ListBucketResult" []
          [.element "Contents" [] [.element "Key" [] [.text "k"], .element "Size" [] []]]) =
        .nullDeref ∧
      (fun response => response.isTruncated) <$> getBucketBody (.element "ListBucketResult" []
          [.element "IsTruncated" [] [.text "trueish"]]) = .returns true := by
  decide

/-! ## Bulk manifest -/

/-- Modelled from the spec: `ds3_bulk_response`; `list_size` is the length of `list`. -/
structure BulkResponse where
  jobId : Option (List Char)
  list : List BulkObjectList
deriving DecidableEq

/-- The zeroed `ds3_bulk_object`. -/
def BulkObject.zero : BulkObject := ⟨none, 0, Nat.two_pow_pos 64⟩

/-- One pass of the attribute loop in `_parse_bulk_object`. -/
def parseBulkObjectAttribute (object : BulkObject) (property : String × String) : BulkObject :=
  if property.1 = "Name" then { object with name := keepText (attributeText property.2) object.name }
  else if property.1 = "Size" then
    { object with
      size := keepNumber (attributeText property.2) object.size
      size_lt := keepNumber_lt _ object.size_lt }
  else object

/-- Models `_parse_bulk_object`; its loop over the children only logs them. -/
def parseBulkObject (objectNode : XmlNode) : BulkObject :=
  objectNode.properties.foldl parseBulkObjectAttribute BulkObject.zero

/-- One pass of the attribute loop in `_parse_bulk_objects`. -/
def parseBulkObjectsAttribute (objects : BulkObjectList) (property : String × String) :
    BulkObjectList :=
  if property.1 = "ServerId" then
    { objects with serverId := keepText (attributeText property.2) objects.serverId }
  else if property.1 = "ChunkNumber" then
    { objects with chunkNumber := keepNumber (attributeText property.2) objects.chunkNumber }
  else objects

/-- Models `_parse_bulk_objects`: the attributes, then every child named
`Object` appended in order. -/
def parseBulkObjects (objectsNode : XmlNode) : BulkObjectList :=
  { objectsNode.properties.foldl parseBulkObjectsAttribute ⟨[], none, 0⟩ with
    list := objectsNode.children.foldl
      (fun array childNode =>
        if childNode.name = "Object" then array ++ [parseBulkObject childNode] else array) [] }

/-- One pass of the attribute loop of `ds3_bulk` over the root. -/
def bulkResponseAttribute (jobId : Option (List Char)) (property : String × String) :
    Option (List Char) :=
  if property.1 = "JobId" then keepText (attributeText property.2) jobId else jobId

/-- The part of `ds3_bulk` after the root check: the job id, then every child
named `Objects` appended as a chunk. -/
def bulkResponseBody (root : XmlNode) : BulkResponse :=
  { jobId := root.properties.foldl bulkResponseAttribute none
    list := root.children.foldl
      (fun array childNode =>
        if childNode.name = "Objects" then array ++ [parseBulkObjects childNode] else array) [] }

/-! ## The bulk decoder, described by names -/

/-- The text of the last property named `key`: for an element, whose attribute
names are distinct, the value of its `key` attribute, absent when it has none. -/
def lastAttributeText (properties : List (String × String)) (key : String) : Option String :=
  (properties.filterMap fun property =>
    if property.1 = key then attributeText property.2 else none).getLast?

theorem lastAttributeText_cons (property : String × String) (rest : List (String × String))
    (key : String) :
    lastAttributeText (property :: rest) key =
      (lastAttributeText rest key).or (if property.1 = key then attributeText property.2 else none) := by
  have getLast?_cons_or (text : String) (texts : List String) :
      (text :: texts).getLast? = texts.getLast?.or (some text) := by
    rw [List.getLast?_cons]; cases texts.getLast? <;> rfl
  unfold lastAttributeText
  by_cases named : property.1 = key
  · cases text : attributeText property.2 with
    | none => simp only [List.filterMap_cons, named, if_true, text, Option.or_none]
    | some value => simp only [List.filterMap_cons, named, if_true, text, getLast?_cons_or]
  · simp only [List.filterMap_cons, named, if_false, Option.or_none]

theorem keepText_twice (first second : Option String) (field : Option (List Char)) :
    keepText first (keepText second field) = keepText (first.or second) field := by
  cases first <;> cases second <;> rfl

theorem keepNumber_twice (first second : Option String) (field : Nat) :
    keepNumber first (keepNumber second field) = keepNumber (first.or second) field := by
  cases first <;> cases second <;> rfl

theorem foldl_keepLast {σ τ : Type} (step : σ → String × String → σ) (field : σ → τ)
    (keep : Option String → τ → τ) (key : String) (keepNone : ∀ value, keep none value = value)
    (keepTwice : ∀ first second value, keep first (keep second value) = keep (first.or second) value)
    (stepField : ∀ state property, field (step state property) =
      if property.1 = key then keep (attributeText property.2) (field state) else field state) :
    ∀ (properties : List (String × String)) (init : σ),
      field (properties.foldl step init) = keep (lastAttributeText properties key) (field init) := by
  intro properties
  induction properties with
  | nil => intro init; exact (keepNone _).symm
  | cons property rest ih =>
      intro init
      rw [List.foldl_cons, ih, stepField, lastAttributeText_cons]
      split
      · exact keepTwice _ _ _
      · simp

theorem foldl_appendIf {α β : Type} (keep : α → Prop) [DecidablePred keep] (f : α → β) :
    ∀ (children : List α) (init : List β),
      children.foldl (fun array child => if keep child then array ++ [f child] else array) init =
        init ++ (children.filter fun child => keep child).map f := by
  intro children
  induction children with
  | nil => intro init; simp
  | cons child rest ih =>
      intro init
      by_cases kept : keep child <;> simp [List.filter_cons, kept, ih]

theorem parseBulkObject_name (objectNode : XmlNode) :
    (parseBulkObject objectNode).name = (lastAttributeText objectNode.properties "Name").map String.toList := by
  have := foldl_keepLast parseBulkObjectAttribute BulkObject.name keepText "Name" (fun _ => rfl)
    keepText_twice (fun object property => by
      unfold parseBulkObjectAttribute; split_ifs <;> rfl) objectNode.properties BulkObject.zero
  rw [parseBulkObject, this]
  cases lastAttributeText objectNode.properties "Name" <;> rfl

theorem parseBulkObject_size (objectNode : XmlNode) :
    (parseBulkObject objectNode).size =
      ((lastAttributeText objectNode.properties "Size").map fun text => strtoul text.toList).getD 0 := by
  have := foldl_keepLast parseBulkObjectAttribute BulkObject.size keepNumber "Size" (fun _ => rfl)
    keepNumber_twice (fun object property => by
      unfold parseBulkObjectAttribute
      split_ifs with named size
      · exact absurd (named.symm.trans size) (by decide)
      · rfl
      · rfl
      · rfl) objectNode.properties BulkObject.zero
  rw [parseBulkObject, this]
  cases lastAttributeText objectNode.properties "Size" <;> rfl

theorem parseBulkObjects_serverId (objectsNode : XmlNode) :
    (parseBulkObjects objectsNode).serverId =
      (lastAttributeText objectsNode.properties "ServerId").map String.toList := by
  have := foldl_keepLast parseBulkObjectsAttribute BulkObjectList.serverId keepText "ServerId"
    (fun _ => rfl) keepText_twice (fun objects property => by
      unfold parseBulkObjectsAttribute; split_ifs <;> rfl) objectsNode.properties ⟨[], none, 0⟩
  rw [parseBulkObjects, this]
  cases lastAttributeText objectsNode.properties "ServerId" <;> rfl

theorem parseBulkObjects_chunkNumber (objectsNode : XmlNode) :
    (parseBulkObjects objectsNode).chunkNumber =
      ((lastAttributeText objectsNode.properties "ChunkNumber").map fun text =>
        strtoul text.toList).getD 0 := by
  have := foldl_keepLast parseBulkObjectsAttribute BulkObjectList.chunkNumber keepNumber
    "ChunkNumber" (fun _ => rfl) keepNumber_twice (fun objects property => by
      unfold parseBulkObjectsAttribute
      split_ifs with named chunk
      · exact absurd (named.symm.trans chunk) (by decide)
      · rfl
      · rfl
      · rfl) objectsNode.properties ⟨[], none, 0⟩
  rw [parseBulkObjects, this]
  cases lastAttributeText objectsNode.properties "ChunkNumber" <;> rfl

theorem parseBulkObjects_list (objectsNode : XmlNode) :
    (parseBulkObjects objectsNode).list =
      (objectsNode.children.filter fun child => child.name = "Object").map parseBulkObject := by
  simp only [parseBulkObjects]
  rw [foldl_appendIf (fun child : XmlNode => child.name = "Object") parseBulkObject, List.nil_append]

theorem bulkResponseBody_jobId (root : XmlNode) :
    (bulkResponseBody root).jobId = (lastAttributeText root.properties "JobId").map String.toList := by
  have := foldl_keepLast bulkResponseAttribute id keepText "JobId" (fun _ => rfl) keepText_twice
    (fun jobId property => by unfold bulkResponseAttribute; split_ifs <;> rfl) root.properties none
  simp only [bulkResponseBody, id] at this ⊢
  rw [this]
  cases lastAttributeText root.properties "JobId" <;> rfl

theorem bulkResponseBody_list (root : XmlNode) :
    (bulkResponseBody root).list =
      (root.children.filter fun child => child.name = "Objects").map parseBulkObjects := by
  simp only [bulkResponseBody]
  rw [foldl_appendIf (fun child : XmlNode => child.name = "Objects") parseBulkObjects, List.nil_append]

/-- What the bulk decoder makes of a child named `Object`: the values of its last
`Name` and `Size` properties, absent or 0 without one. -/
def ObjectDecodes (objectNode : XmlNode) (object : BulkObject) : Prop :=
  object.name = (lastAttributeText objectNode.properties "Name").map String.toList ∧
    object.size = ((lastAttributeText objectNode.properties "Size").map fun text =>
      strtoul text.toList).getD 0

/-- What the bulk decoder makes of a child named `Objects`: its `ServerId` and
`ChunkNumber`, and one object for each of its children named `Object`, in order. -/
def ChunkDecodes (objectsNode : XmlNode) (chunk : BulkObjectList) : Prop :=
  chunk.serverId = (lastAttributeText objectsNode.properties "ServerId").map String.toList ∧
    chunk.chunkNumber = ((lastAttributeText objectsNode.properties "ChunkNumber").map fun text =>
      strtoul text.toList).getD 0 ∧
    List.Forall₂ ObjectDecodes (objectsNode.children.filter fun child => child.name = "Object")
      chunk.list

theorem chunkDecodes_parseBulkObjects (objectsNode : XmlNode) :
    ChunkDecodes objectsNode (parseBulkObjects objectsNode) := by
  refine ⟨parseBulkObjects_serverId objectsNode, parseBulkObjects_chunkNumber objectsNode, ?_⟩
  rw [parseBulkObjects_list, List.forall₂_map_right_iff, List.forall₂_same]
  exact fun objectNode _ => ⟨parseBulkObject_name objectNode, parseBulkObject_size objectNode⟩

/-- The bulk decoder reads, by name alone, the job id, one chunk per child named
`Objects` and one object per child of it named `Object`; so the objects of all
chunks are as many as the children named `Object` of the children named
`Objects`, however they are grouped. -/
theorem bulkResponseBody_decodes_by_name (root : XmlNode) :
    (bulkResponseBody root).jobId = (lastAttributeText root.properties "JobId").map String.toList ∧
      List.Forall₂ ChunkDecodes (root.children.filter fun child => child.name = "Objects")
        (bulkResponseBody root).list ∧
      ((bulkResponseBody root).list.map fun chunk => chunk.list.length).sum =
        ((root.children.filter fun child => child.name = "Objects").map fun objectsNode =>
          (objectsNode.children.filter fun child => child.name = "Object").length).sum := by
  refine ⟨bulkResponseBody_jobId root, ?_, ?_⟩
  · rw [bulkResponseBody_list, List.forall₂_map_right_iff, List.forall₂_same]
    exact fun objectsNode _ => chunkDecodes_parseBulkObjects objectsNode
  · rw [bulkResponseBody_list, List.map_map]
    congr 1
    refine List.map_congr_left fun objectsNode _ => ?_
    simp [parseBulkObjects_list]

/-- A processing instruction whose target is `Objects` is read as a chunk,
though the root has no element child. -/
theorem bulkResponseBody_instruction_as_chunk :
    (bulkResponseBody (.element "MasterObjectList" [] [.pi "Objects" "x"])).list = [⟨[], none, 0⟩] := by
  decide

end Ds3.Xml
