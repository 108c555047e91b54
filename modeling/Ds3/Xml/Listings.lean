import Ds3.Xml.Decode

/-! # What the listing decoders read

`ds3_get_service` and `ds3_get_bucket` decode a document by the names of its
nodes.  This module says, by names alone, what they make of a whole document,
and proves that the decoders of `Decode` compute it:

* a listing reads through a null pointer exactly when one of its unguarded
  leaves is empty (`ServiceReadsNull`, `BucketListingReadsNull`);
* otherwise the service listing is `serviceListing` and the bucket listing is
  `bucketListing` (`getServiceBody_by_name`, `getBucketBody_by_name`).

A guarded field takes the text of the last child of its name that has text.
An unguarded one takes the text of the last child of its name, and when the
decoding returns, every such child has text.  Each `Contents` child gives one
object, and each child of the last `Buckets` child gives one bucket. -/

set_option autoImplicit false

namespace Ds3.Xml

open Ds3

/-! ## The last child of a name -/

def childText (child : XmlNode) : Option String := nodeListGetString child.children

def lastNamed {ν : Type} (value : XmlNode → Option ν) (children : List XmlNode) (key : String) :
    Option ν :=
  (children.filterMap fun child => if child.name = key then value child else none).getLast?

def lastChildText (children : List XmlNode) (key : String) : Option String :=
  lastNamed childText children key

def lastChild (children : List XmlNode) (key : String) : Option XmlNode := lastNamed some children key

def keepNamed {ν τ : Type} (key : String) (value : XmlNode → Option ν) (keep : Option ν → τ → τ)
    (field : τ) (child : XmlNode) : τ :=
  if child.name = key then keep (value child) field else field

section LastNamed
variable {ν τ : Type}

theorem lastNamed_cons (value : XmlNode → Option ν) (child : XmlNode) (rest : List XmlNode) (key : String) :
    lastNamed value (child :: rest) key =
      (lastNamed value rest key).or (if child.name = key then value child else none) := by
  unfold lastNamed
  rw [List.filterMap_cons]
  cases (if child.name = key then value child else none) with
  | none => simp
  | some v => rw [List.getLast?_cons]; cases (List.filterMap _ rest).getLast? <;> rfl

theorem foldl_keepNamed (key : String) (value : XmlNode → Option ν) (keep : Option ν → τ → τ)
    (keepNone : ∀ field, keep none field = field)
    (keepTwice : ∀ first second field, keep first (keep second field) = keep (first.or second) field) :
    ∀ (children : List XmlNode) (init : τ),
      children.foldl (keepNamed key value keep) init = keep (lastNamed value children key) init := by
  intro children
  induction children with
  | nil => intro init; exact (keepNone init).symm
  | cons child rest ih =>
      intro init
      rw [List.foldl_cons, ih, lastNamed_cons, keepNamed]
      split
      · exact keepTwice _ _ _
      · rw [Option.or_none]

theorem lastNamed_some (g : XmlNode → ν) (children : List XmlNode) (key : String) :
    lastNamed (fun child => some (g child)) children key = (lastChild children key).map g := by
  induction children with
  | nil => rfl
  | cons child rest ih =>
      rw [lastChild, lastNamed_cons, lastNamed_cons, ← lastChild, ih]
      cases lastChild rest key <;> split <;> rfl

end LastNamed

@[simp] theorem keepText_some (text : String) (field : Option (List Char)) :
    keepText (some text) field = some text.toList := rfl

@[simp] theorem keepNumber_some (text : String) (field : Nat) :
    keepNumber (some text) field = strtoul text.toList := rfl

theorem keepText_none_field (text : Option String) : keepText text none = text.map String.toList := by
  cases text <;> rfl

theorem keepNumber_zero (text : Option String) :
    keepNumber text 0 = (text.map fun text => strtoul text.toList).getD 0 := by
  cases text <;> rfl

def keepTruncated (text : Option String) (isTruncated : Bool) : Bool :=
  match text with
  | none => isTruncated
  | some text => strncmpEq text.toList "true".toList 4

theorem keepTruncated_twice (first second : Option String) (isTruncated : Bool) :
    keepTruncated first (keepTruncated second isTruncated) = keepTruncated (first.or second) isTruncated := by
  cases first <;> cases second <;> rfl

theorem keepTruncated_false (text : Option String) :
    keepTruncated text false = (text.map fun text => strncmpEq text.toList "true".toList 4).getD false := by
  cases text <;> rfl

theorem getD_twice {α : Type} (first second : Option α) (field : α) :
    first.getD (second.getD field) = (first.or second).getD field := by
  cases first <;> cases second <;> rfl

section Fields
variable {β ν τ : Type} {f : β → XmlNode → Outcome β} {children : List XmlNode} {init final : β}

theorem foldlM_keepNamed (field : β → τ) (key : String) (value : XmlNode → Option ν)
    (keep : Option ν → τ → τ) (keepNone : ∀ field, keep none field = field)
    (keepTwice : ∀ first second field, keep first (keep second field) = keep (first.or second) field)
    (stepField : ∀ b x b', f b x = .returns b' → field b' = keepNamed key value keep (field b) x)
    (run : children.foldlM f init = .returns final) :
    field final = keep (lastNamed value children key) (field init) := by
  rw [Outcome.foldlM_field f field _ stepField children init final run,
    foldl_keepNamed key value keep keepNone keepTwice]

theorem foldlM_keepText (field : β → Option (List Char)) (key : String) (absent : field init = none)
    (stepField : ∀ b x b', f b x = .returns b' → field b' = keepNamed key childText keepText (field b) x)
    (run : children.foldlM f init = .returns final) :
    field final = (lastChildText children key).map String.toList := by
  rw [foldlM_keepNamed field key childText keepText (fun _ => rfl) keepText_twice stepField run, absent,
    keepText_none_field, lastChildText]

end Fields

/-! ## The listings by name -/

def ownerOf (ownerNode : XmlNode) : Owner :=
  ⟨(lastChildText ownerNode.children "DisplayName").map String.toList,
    (lastChildText ownerNode.children "ID").map String.toList⟩

def bucketOf (curr : XmlNode) : Bucket :=
  ⟨(lastChildText curr.children "Name").map String.toList,
    (lastChildText curr.children "CreationDate").map String.toList⟩

def objectOf (contentsNode : XmlNode) : Ds3Object :=
  { name := (lastChildText contentsNode.children "Key").map String.toList
    etag := (lastChildText contentsNode.children "ETag").map String.toList
    lastModified := (lastChildText contentsNode.children "LastModified").map String.toList
    storageClass := (lastChildText contentsNode.children "StorageClass").map String.toList
    size := ((lastChildText contentsNode.children "Size").map fun text => strtoul text.toList).getD 0
    owner := (lastChild contentsNode.children "Owner").map ownerOf }

def serviceListing (root : XmlNode) : GetServiceResponse :=
  { owner := (lastChild root.children "Owner").map ownerOf
    buckets := ((lastChild root.children "Buckets").map fun bucketsNode =>
      bucketsNode.children.map bucketOf).getD [] }

def bucketListing (root : XmlNode) : GetBucketResponse :=
  { objects := (root.children.filter fun child => child.name = "Contents").map objectOf
    creationDate := (lastChildText root.children "CreationDate").map String.toList
    isTruncated := ((lastChildText root.children "IsTruncated").map fun text =>
      strncmpEq text.toList "true".toList 4).getD false
    marker := (lastChildText root.children "Marker").map String.toList
    maxKeys := ((lastChildText root.children "MaxKeys").map fun text => strtoul text.toList).getD 0
    name := (lastChildText root.children "Name").map String.toList
    delimiter := (lastChildText root.children "Delimiter").map String.toList
    nextMarker := (lastChildText root.children "NextMarker").map String.toList
    keyPrefix := (lastChildText root.children "Prefix").map String.toList }

/-! ## When a listing reads a null pointer

Every step of the two listing decoders crashes or not according to the child
alone, never the record built so far, so a whole listing crashes exactly when
one of its unguarded leaves is empty (`Outcome.foldlM_eq_nullDeref_iff`). -/

def EmptyLeaf (names : List String) (node : XmlNode) : Prop :=
  node.name ∈ names ∧ nodeListGetString node.children = none

instance (names : List String) (node : XmlNode) : Decidable (EmptyLeaf names node) :=
  inferInstanceAs (Decidable (_ ∧ _))

def OwnerReadsNull (ownerNode : XmlNode) : Prop :=
  ∃ childNode ∈ ownerNode.children, EmptyLeaf ["DisplayName", "ID"] childNode

instance (ownerNode : XmlNode) : Decidable (OwnerReadsNull ownerNode) :=
  inferInstanceAs (Decidable (∃ _ ∈ _, _))

def BucketsReadNull (bucketsNode : XmlNode) : Prop :=
  ∃ curr ∈ bucketsNode.children, ∃ dataPtr ∈ curr.children, EmptyLeaf ["CreationDate", "Name"] dataPtr

instance (bucketsNode : XmlNode) : Decidable (BucketsReadNull bucketsNode) :=
  inferInstanceAs (Decidable (∃ _ ∈ _, _))

def ObjectReadsNull (contentsNode : XmlNode) : Prop :=
  ∃ childNode ∈ contentsNode.children,
    EmptyLeaf ["Key", "Size"] childNode ∨ childNode.name = "Owner" ∧ OwnerReadsNull childNode

instance (contentsNode : XmlNode) : Decidable (ObjectReadsNull contentsNode) :=
  inferInstanceAs (Decidable (∃ _ ∈ _, _))

def ServiceReadsNull (root : XmlNode) : Prop :=
  ∃ childNode ∈ root.children,
    childNode.name = "Buckets" ∧ BucketsReadNull childNode ∨ childNode.name = "Owner" ∧ OwnerReadsNull childNode

instance (root : XmlNode) : Decidable (ServiceReadsNull root) := inferInstanceAs (Decidable (∃ _ ∈ _, _))

def BucketListingReadsNull (root : XmlNode) : Prop :=
  ∃ childNode ∈ root.children, childNode.name = "Contents" ∧ ObjectReadsNull childNode

instance (root : XmlNode) : Decidable (BucketListingReadsNull root) :=
  inferInstanceAs (Decidable (∃ _ ∈ _, _))

theorem parseOwnerChild_eq_nullDeref_iff (owner : Owner) (childNode : XmlNode) :
    parseOwnerChild owner childNode = .nullDeref ↔ EmptyLeaf ["DisplayName", "ID"] childNode := by
  unfold parseOwnerChild EmptyLeaf
  cases text : nodeListGetString childNode.children <;> by_cases display : childNode.name = "DisplayName" <;>
    by_cases id : childNode.name = "ID" <;> simp [text, display, id, copyText]

theorem parseOwner_eq_nullDeref_iff (ownerNode : XmlNode) :
    parseOwner ownerNode = .nullDeref ↔ OwnerReadsNull ownerNode :=
  Outcome.foldlM_eq_nullDeref_iff _ _ parseOwnerChild_eq_nullDeref_iff _ _

theorem parseBucketChild_eq_nullDeref_iff (bucket : Bucket) (dataPtr : XmlNode) :
    parseBucketChild bucket dataPtr = .nullDeref ↔ EmptyLeaf ["CreationDate", "Name"] dataPtr := by
  unfold parseBucketChild EmptyLeaf
  cases text : nodeListGetString dataPtr.children <;> by_cases created : dataPtr.name = "CreationDate" <;>
    by_cases named : dataPtr.name = "Name" <;> simp [text, created, named, copyText]

theorem parseBuckets_eq_nullDeref_iff (bucketsNode : XmlNode) :
    parseBuckets bucketsNode = .nullDeref ↔ BucketsReadNull bucketsNode := by
  refine Outcome.foldlM_eq_nullDeref_iff _ _ (fun _ curr => ?_) _ _
  exact (Outcome.map_eq_nullDeref_iff _ _).trans
    (Outcome.foldlM_eq_nullDeref_iff _ _ parseBucketChild_eq_nullDeref_iff curr.children _)

theorem getServiceChild_eq_nullDeref_iff (response : GetServiceResponse) (childNode : XmlNode) :
    getServiceChild response childNode = .nullDeref ↔
      childNode.name = "Buckets" ∧ BucketsReadNull childNode ∨
        childNode.name = "Owner" ∧ OwnerReadsNull childNode := by
  unfold getServiceChild
  by_cases buckets : childNode.name = "Buckets"
  · simp [buckets, parseBuckets_eq_nullDeref_iff]
  · by_cases owner : childNode.name = "Owner" <;> simp [buckets, owner, parseOwner_eq_nullDeref_iff]

theorem getServiceBody_eq_nullDeref_iff (root : XmlNode) :
    getServiceBody root = .nullDeref ↔ ServiceReadsNull root :=
  Outcome.foldlM_eq_nullDeref_iff _ _ getServiceChild_eq_nullDeref_iff _ _

theorem parseObjectChild_eq_nullDeref_iff (object : Ds3Object) (childNode : XmlNode) :
    parseObjectChild object childNode = .nullDeref ↔
      EmptyLeaf ["Key", "Size"] childNode ∨ childNode.name = "Owner" ∧ OwnerReadsNull childNode := by
  unfold parseObjectChild EmptyLeaf
  by_cases key : childNode.name = "Key"
  · cases text : nodeListGetString childNode.children <;> simp [key, text, copyText]
  by_cases etag : childNode.name = "ETag"
  · simp [key, etag]
  by_cases modified : childNode.name = "LastModified"
  · simp [key, etag, modified]
  by_cases storage : childNode.name = "StorageClass"
  · simp [key, etag, modified, storage]
  by_cases size : childNode.name = "Size"
  · cases text : nodeListGetString childNode.children <;> simp [key, size, text, strtoulText]
  by_cases owner : childNode.name = "Owner" <;>
    simp [key, etag, modified, storage, size, owner, parseOwner_eq_nullDeref_iff]

theorem parseObject_eq_nullDeref_iff (contentsNode : XmlNode) :
    parseObject contentsNode = .nullDeref ↔ ObjectReadsNull contentsNode :=
  Outcome.foldlM_eq_nullDeref_iff _ _ parseObjectChild_eq_nullDeref_iff _ _

theorem getBucketChild_eq_nullDeref_iff (response : GetBucketResponse) (childNode : XmlNode) :
    getBucketChild response childNode = .nullDeref ↔
      childNode.name = "Contents" ∧ ObjectReadsNull childNode := by
  unfold getBucketChild
  by_cases contents : childNode.name = "Contents"
  · simp [contents, parseObject_eq_nullDeref_iff]
  · simp only [contents, if_false, false_and, iff_false, ite_eq_iff, Outcome.pure_eq, reduceCtorEq,
      and_false, or_false, not_false_eq_true]

theorem getBucketBody_eq_nullDeref_iff (root : XmlNode) :
    getBucketBody root = .nullDeref ↔ BucketListingReadsNull root :=
  Outcome.foldlM_eq_nullDeref_iff _ _ getBucketChild_eq_nullDeref_iff _ _

/-! ## What a returning decoder computes -/

theorem parseOwnerChild_returns {owner owner' : Owner} {childNode : XmlNode}
    (run : parseOwnerChild owner childNode = .returns owner') :
    owner'.name = keepNamed "DisplayName" childText keepText owner.name childNode ∧
      owner'.id = keepNamed "ID" childText keepText owner.id childNode := by
  unfold parseOwnerChild at run
  unfold keepNamed childText
  cases text : nodeListGetString childNode.children <;> by_cases display : childNode.name = "DisplayName" <;>
    by_cases id : childNode.name = "ID" <;> simp [text, display, id, copyText] at run ⊢ <;> simp [← run]

theorem parseOwner_returns {ownerNode : XmlNode} {owner : Owner} (run : parseOwner ownerNode = .returns owner) :
    owner = ownerOf ownerNode := by
  have name := foldlM_keepText Owner.name "DisplayName" rfl (fun _ _ _ step => (parseOwnerChild_returns step).1) run
  have id := foldlM_keepText Owner.id "ID" rfl (fun _ _ _ step => (parseOwnerChild_returns step).2) run
  cases owner
  simp only at name id
  rw [ownerOf, name, id]

theorem parseBucketChild_returns {bucket bucket' : Bucket} {dataPtr : XmlNode}
    (run : parseBucketChild bucket dataPtr = .returns bucket') :
    bucket'.name = keepNamed "Name" childText keepText bucket.name dataPtr ∧
      bucket'.creationDate = keepNamed "CreationDate" childText keepText bucket.creationDate dataPtr := by
  unfold parseBucketChild at run
  unfold keepNamed childText
  cases text : nodeListGetString dataPtr.children <;> by_cases created : dataPtr.name = "CreationDate" <;>
    by_cases named : dataPtr.name = "Name" <;> simp [text, created, named, copyText] at run ⊢ <;> simp [← run]

theorem bucket_returns {curr : XmlNode} {bucket : Bucket}
    (run : curr.children.foldlM parseBucketChild ⟨none, none⟩ = .returns bucket) : bucket = bucketOf curr := by
  have name := foldlM_keepText Bucket.name "Name" rfl (fun _ _ _ step => (parseBucketChild_returns step).1) run
  have created := foldlM_keepText Bucket.creationDate "CreationDate" rfl
    (fun _ _ _ step => (parseBucketChild_returns step).2) run
  cases bucket
  simp only at name created
  rw [bucketOf, name, created]

theorem parseBuckets_returns {bucketsNode : XmlNode} {buckets : List Bucket}
    (run : parseBuckets bucketsNode = .returns buckets) : buckets = bucketsNode.children.map bucketOf :=
  Outcome.foldlM_append_map _ bucketOf (fun _ _ => bucket_returns) _ [] buckets run

theorem getServiceChild_returns {response response' : GetServiceResponse} {childNode : XmlNode}
    (run : getServiceChild response childNode = .returns response') :
    response'.owner = keepNamed "Owner" (fun node => some (ownerOf node)) Option.or response.owner childNode ∧
      response'.buckets = keepNamed "Buckets" (fun node => some (node.children.map bucketOf))
        (fun buckets field => buckets.getD field) response.buckets childNode := by
  unfold getServiceChild at run
  unfold keepNamed
  by_cases buckets : childNode.name = "Buckets"
  · simp only [buckets, if_true] at run
    obtain ⟨parsed, parsedRun, rfl⟩ := Outcome.map_eq_returns run
    simp [buckets, parseBuckets_returns parsedRun]
  by_cases owner : childNode.name = "Owner"
  · simp only [buckets, owner, if_true, if_false] at run
    obtain ⟨parsed, parsedRun, rfl⟩ := Outcome.map_eq_returns run
    simp [owner, parseOwner_returns parsedRun]
  · simp only [buckets, owner, if_false, Outcome.pure_eq, Outcome.returns.injEq] at run
    simp [buckets, owner, run]

theorem getServiceBody_returns {root : XmlNode} {response : GetServiceResponse}
    (run : getServiceBody root = .returns response) : response = serviceListing root := by
  have owner := foldlM_keepNamed GetServiceResponse.owner "Owner" _ Option.or (fun _ => rfl)
    (fun _ _ _ => Option.or_assoc.symm) (fun _ _ _ step => (getServiceChild_returns step).1) run
  have buckets := foldlM_keepNamed GetServiceResponse.buckets "Buckets" _ _ (fun _ => rfl) getD_twice
    (fun _ _ _ step => (getServiceChild_returns step).2) run
  rw [lastNamed_some, Option.or_none] at owner
  rw [lastNamed_some] at buckets
  cases response
  simp only at owner buckets
  rw [serviceListing, owner, buckets]

/-- What `ds3_get_service` makes of a document with the expected root: it reads
through a null pointer exactly when a `Buckets` or `Owner` child holds an empty
unguarded leaf, and otherwise returns the listing by names, `serviceListing`. -/
theorem getServiceBody_by_name (root : XmlNode) :
    getServiceBody root = if ServiceReadsNull root then .nullDeref else .returns (serviceListing root) := by
  split
  · rename_i crashes; exact (getServiceBody_eq_nullDeref_iff root).mpr crashes
  · rename_i safe
    cases run : getServiceBody root with
    | returns response => rw [getServiceBody_returns run]
    | nullDeref => exact absurd ((getServiceBody_eq_nullDeref_iff root).mp run) safe

theorem parseObjectChild_returns {object object' : Ds3Object} {childNode : XmlNode}
    (run : parseObjectChild object childNode = .returns object') :
    object'.name = keepNamed "Key" childText keepText object.name childNode ∧
      object'.etag = keepNamed "ETag" childText keepText object.etag childNode ∧
      object'.lastModified = keepNamed "LastModified" childText keepText object.lastModified childNode ∧
      object'.storageClass = keepNamed "StorageClass" childText keepText object.storageClass childNode ∧
      object'.size = keepNamed "Size" childText keepNumber object.size childNode ∧
      object'.owner = keepNamed "Owner" (fun node => some (ownerOf node)) Option.or object.owner childNode := by
  unfold parseObjectChild at run
  unfold keepNamed childText
  by_cases key : childNode.name = "Key"
  · cases text : nodeListGetString childNode.children <;> simp [key, text, copyText] at run ⊢
    simp [← run]
  by_cases etag : childNode.name = "ETag"
  · simp [etag] at run ⊢; simp [← run]
  by_cases modified : childNode.name = "LastModified"
  · simp [modified] at run ⊢; simp [← run]
  by_cases storage : childNode.name = "StorageClass"
  · simp [storage] at run ⊢; simp [← run]
  by_cases size : childNode.name = "Size"
  · cases text : nodeListGetString childNode.children <;> simp [size, text, strtoulText] at run ⊢
    simp [← run]
  by_cases owner : childNode.name = "Owner"
  · simp only [key, etag, modified, storage, size, owner, if_true, if_false] at run
    obtain ⟨parsed, parsedRun, rfl⟩ := Outcome.map_eq_returns run
    simp [owner, parseOwner_returns parsedRun]
  · simp only [key, etag, modified, storage, size, owner, if_false, Outcome.pure_eq, Outcome.returns.injEq] at run
    simp [key, etag, modified, storage, size, owner, run]

theorem parseObject_returns {contentsNode : XmlNode} {object : Ds3Object}
    (run : parseObject contentsNode = .returns object) : object = objectOf contentsNode := by
  have step := fun b x b' (next : parseObjectChild b x = .returns b') => parseObjectChild_returns next
  have name := foldlM_keepText Ds3Object.name "Key" rfl (fun _ _ _ next => (step _ _ _ next).1) run
  have etag := foldlM_keepText Ds3Object.etag "ETag" rfl (fun _ _ _ next => (step _ _ _ next).2.1) run
  have modified := foldlM_keepText Ds3Object.lastModified "LastModified" rfl
    (fun _ _ _ next => (step _ _ _ next).2.2.1) run
  have storage := foldlM_keepText Ds3Object.storageClass "StorageClass" rfl
    (fun _ _ _ next => (step _ _ _ next).2.2.2.1) run
  have size := foldlM_keepNamed Ds3Object.size "Size" _ _ (fun _ => rfl) keepNumber_twice
    (fun _ _ _ next => (step _ _ _ next).2.2.2.2.1) run
  have owner := foldlM_keepNamed Ds3Object.owner "Owner" _ Option.or (fun _ => rfl)
    (fun _ _ _ => Option.or_assoc.symm) (fun _ _ _ next => (step _ _ _ next).2.2.2.2.2) run
  rw [lastNamed_some, Option.or_none] at owner
  cases object
  simp only at name etag modified storage size owner
  rw [objectOf, name, etag, modified, storage, size, owner, keepNumber_zero]
  rfl

theorem getBucketChild_returns {response response' : GetBucketResponse} {childNode : XmlNode}
    (run : getBucketChild response childNode = .returns response') :
    response'.objects =
        (if childNode.name = "Contents" then response.objects ++ [objectOf childNode] else response.objects) ∧
      response'.creationDate = keepNamed "CreationDate" childText keepText response.creationDate childNode ∧
      response'.isTruncated = keepNamed "IsTruncated" childText keepTruncated response.isTruncated childNode ∧
      response'.marker = keepNamed "Marker" childText keepText response.marker childNode ∧
      response'.maxKeys = keepNamed "MaxKeys" childText keepNumber response.maxKeys childNode ∧
      response'.name = keepNamed "Name" childText keepText response.name childNode ∧
      response'.delimiter = keepNamed "Delimiter" childText keepText response.delimiter childNode ∧
      response'.nextMarker = keepNamed "NextMarker" childText keepText response.nextMarker childNode ∧
      response'.keyPrefix = keepNamed "Prefix" childText keepText response.keyPrefix childNode := by
  unfold getBucketChild at run
  unfold keepNamed childText
  by_cases contents : childNode.name = "Contents"
  · simp only [contents, if_true] at run
    obtain ⟨parsed, parsedRun, rfl⟩ := Outcome.map_eq_returns run
    simp [contents, parseObject_returns parsedRun]
  by_cases created : childNode.name = "CreationDate"
  · simp [created] at run ⊢; simp [← run]
  by_cases truncated : childNode.name = "IsTruncated"
  · cases text : nodeListGetString childNode.children <;> simp [truncated, text, keepTruncated] at run ⊢ <;>
      simp [← run]
  by_cases marker : childNode.name = "Marker"
  · simp [marker] at run ⊢; simp [← run]
  by_cases maxKeys : childNode.name = "MaxKeys"
  · simp [maxKeys] at run ⊢; simp [← run]
  by_cases named : childNode.name = "Name"
  · simp [named] at run ⊢; simp [← run]
  by_cases delimiter : childNode.name = "Delimiter"
  · simp [delimiter] at run ⊢; simp [← run]
  by_cases next : childNode.name = "NextMarker"
  · simp [next] at run ⊢; simp [← run]
  by_cases keyPrefix : childNode.name = "Prefix"
  · simp [keyPrefix] at run ⊢; simp [← run]
  · simp only [contents, created, truncated, marker, maxKeys, named, delimiter, next, keyPrefix, if_false,
      Outcome.pure_eq, Outcome.returns.injEq] at run
    simp [contents, created, truncated, marker, maxKeys, named, delimiter, next, keyPrefix, run]

theorem getBucketBody_returns {root : XmlNode} {response : GetBucketResponse}
    (run : getBucketBody root = .returns response) : response = bucketListing root := by
  have step := fun b x b' (next : getBucketChild b x = .returns b') => getBucketChild_returns next
  have objects := Outcome.foldlM_field _ GetBucketResponse.objects
    (fun objects child => if child.name = "Contents" then objects ++ [objectOf child] else objects)
    (fun _ _ _ next => (step _ _ _ next).1) _ _ _ run
  have created := foldlM_keepText GetBucketResponse.creationDate "CreationDate" rfl
    (fun _ _ _ next => (step _ _ _ next).2.1) run
  have truncated := foldlM_keepNamed GetBucketResponse.isTruncated "IsTruncated" _ _ (fun _ => rfl)
    keepTruncated_twice (fun _ _ _ next => (step _ _ _ next).2.2.1) run
  have marker := foldlM_keepText GetBucketResponse.marker "Marker" rfl
    (fun _ _ _ next => (step _ _ _ next).2.2.2.1) run
  have maxKeys := foldlM_keepNamed GetBucketResponse.maxKeys "MaxKeys" _ _ (fun _ => rfl) keepNumber_twice
    (fun _ _ _ next => (step _ _ _ next).2.2.2.2.1) run
  have named := foldlM_keepText GetBucketResponse.name "Name" rfl
    (fun _ _ _ next => (step _ _ _ next).2.2.2.2.2.1) run
  have delimiter := foldlM_keepText GetBucketResponse.delimiter "Delimiter" rfl
    (fun _ _ _ next => (step _ _ _ next).2.2.2.2.2.2.1) run
  have next := foldlM_keepText GetBucketResponse.nextMarker "NextMarker" rfl
    (fun _ _ _ next => (step _ _ _ next).2.2.2.2.2.2.2.1) run
  have keyPrefix := foldlM_keepText GetBucketResponse.keyPrefix "Prefix" rfl
    (fun _ _ _ next => (step _ _ _ next).2.2.2.2.2.2.2.2) run
  rw [foldl_appendIf (fun child : XmlNode => child.name = "Contents") objectOf] at objects
  cases response
  simp only [List.nil_append] at objects created truncated marker maxKeys named delimiter next keyPrefix
  rw [bucketListing, objects, created, truncated, marker, maxKeys, named, delimiter, next, keyPrefix,
    keepNumber_zero, keepTruncated_false]
  rfl

/-- What `ds3_get_bucket` makes of a document with the expected root: it reads
through a null pointer exactly when a `Contents` child holds an empty `Key` or
`Size` or an owner with an empty leaf, and otherwise returns the listing by
names, `bucketListing`. -/
theorem getBucketBody_by_name (root : XmlNode) :
    getBucketBody root = if BucketListingReadsNull root then .nullDeref else .returns (bucketListing root) := by
  split
  · rename_i crashes; exact (getBucketBody_eq_nullDeref_iff root).mpr crashes
  · rename_i safe
    cases run : getBucketBody root with
    | returns response => rw [getBucketBody_returns run]
    | nullDeref => exact absurd ((getBucketBody_eq_nullDeref_iff root).mp run) safe

end Ds3.Xml
