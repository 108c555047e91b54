import Ds3.ResponseMemory.Heap
import Ds3.Xml.Decode

/-! # The memory of a service listing

`_parse_owner` allocates a `ds3_owner` and a copy of each `DisplayName` and
`ID` text it meets; `_parse_buckets` grows a `GArray` of `ds3_bucket` records,
each with a copy of its `Name` and `CreationDate` texts, hands the array's data
to the response and frees the array's header; `ds3_get_service` allocates the
response and stores into it.  A field set twice keeps the second copy only:
the first stays allocated, and nothing points to it any more.
`ds3_free_service_response` frees the strings of each bucket, the owner with
`ds3_free_owner`, the array's data, then the response. -/

set_option autoImplicit false

namespace Ds3.ResponseMemory

open Ds3 Ds3.HeaderMemory Ds3.Xml

/-! ## The decoder -/

def copyLeaf (heap : Heap) : Option String → Access (Nat × Heap)
  | none => .nullDeref
  | some text =>
      (heap.next + 1, ·) <$> ((heap.alloc (.text text.toList)).alloc (.text text.toList)).free heap.next

def parseOwnerChildMem (owner : Nat) (heap : Heap) (childNode : XmlNode) : Access Heap :=
  if childNode.name = "DisplayName" then
    copyLeaf heap (nodeListGetString childNode.children) >>= fun (copy, heap) =>
      heap.store owner fun value => .owner { value.asOwner with name := some copy }
  else if childNode.name = "ID" then
    copyLeaf heap (nodeListGetString childNode.children) >>= fun (copy, heap) =>
      heap.store owner fun value => .owner { value.asOwner with id := some copy }
  else pure heap

/-- Models `_parse_owner`: `g_new0 (ds3_owner, 1)` at `heap.next`, then the loop. -/
def parseOwnerMem (heap : Heap) (ownerNode : XmlNode) : Access (Nat × Heap) :=
  (heap.next, ·) <$> ownerNode.children.foldlM (parseOwnerChildMem heap.next) (heap.alloc (.owner ⟨none, none⟩))

def parseBucketChildMem (state : BucketFields Nat × Heap) (dataPtr : XmlNode) : Access (BucketFields Nat × Heap) :=
  if dataPtr.name = "CreationDate" then
    (fun (copy, heap) => ({ state.1 with creationDate := some copy }, heap)) <$>
      copyLeaf state.2 (nodeListGetString dataPtr.children)
  else if dataPtr.name = "Name" then
    (fun (copy, heap) => ({ state.1 with name := some copy }, heap)) <$>
      copyLeaf state.2 (nodeListGetString dataPtr.children)
  else pure state

def parseBucketMem (array : Nat) (heap : Heap) (curr : XmlNode) : Access Heap :=
  curr.children.foldlM parseBucketChildMem (⟨none, none⟩, heap) >>= fun (bucket, heap) =>
    gArrayAppendVal heap array (.bucket bucket)

/-- Models `_parse_buckets`: `g_array_new` at `heap.next`, a bucket per child,
then `num_buckets` and `buckets` of the response at `response` set from the
array, and `g_array_free (array, FALSE)`, which frees the header and keeps the
data. -/
def parseBucketsMem (response : Nat) (heap : Heap) (bucketsNode : XmlNode) : Access Heap :=
  bucketsNode.children.foldlM (parseBucketMem heap.next) (heap.alloc (.garray none 0)) >>= fun filled =>
    filled.read heap.next >>= fun header =>
      filled.store response (fun value => .serviceResponse
        { value.asService with numBuckets := header.asArray.2, buckets := header.asArray.1 }) >>= (·.free heap.next)

def getServiceChildMem (response : Nat) (heap : Heap) (childNode : XmlNode) : Access Heap :=
  if childNode.name = "Buckets" then parseBucketsMem response heap childNode
  else if childNode.name = "Owner" then
    parseOwnerMem heap childNode >>= fun (owner, heap) =>
      heap.store response fun value => .serviceResponse { value.asService with owner := some owner }
  else pure heap

def getServiceBodyMem (heap : Heap) (root : XmlNode) : Access (Nat × Heap) :=
  (heap.next, ·) <$> root.children.foldlM (getServiceChildMem heap.next)
    (heap.alloc (.serviceResponse ⟨none, none, 0⟩))

/-! ## Freeing -/

/-- Models `ds3_free_owner`; a `NULL` owner is only reported. -/
def ds3FreeOwner (heap : Heap) : Option Nat → Access Heap
  | none => pure heap
  | some owner => heap.read owner >>= fun value =>
      gFree heap value.asOwner.name >>= (gFree · value.asOwner.id) >>= (·.free owner)

def Cell.asBucket : Cell → BucketFields Nat
  | .bucket fields => fields

def readCells (heap : Heap) (array : Option Nat) (count : Nat) : Access (List Cell) :=
  match array with
  | none => if count = 0 then pure [] else .nullDeref
  | some array => heap.read array >>= fun value => pure (value.asCells.take count)

/-- Models `ds3_free_service_response`. -/
def ds3FreeServiceResponse (heap : Heap) : Option Nat → Access Heap
  | none => pure heap
  | some response => heap.read response >>= fun value =>
      readCells heap value.asService.buckets value.asService.numBuckets >>= fun cells =>
        cells.foldlM (fun heap cell => gFree heap cell.asBucket.name >>= (gFree · cell.asBucket.creationDate)) heap >>=
          (ds3FreeOwner · value.asService.owner) >>= (gFree · value.asService.buckets) >>= (·.free response)

/-! ## Views of what the decoder built -/

def OwnerFields.entries {α : Type} (fields : OwnerFields α) : List α := fields.name.toList ++ fields.id.toList

def OwnerFields.pointers (fields : OwnerFields (Nat × List Char)) : OwnerFields Nat :=
  ⟨fields.name.map Prod.fst, fields.id.map Prod.fst⟩

def OwnerFields.texts (fields : OwnerFields (Nat × List Char)) : Owner :=
  ⟨fields.name.map Prod.snd, fields.id.map Prod.snd⟩

/-- A decoded `ds3_owner`: its block, and its fields with the texts they point to. -/
structure OwnerView where
  block : Nat
  fields : OwnerFields (Nat × List Char)

def OwnerView.Holds (heap : Heap) (view : OwnerView) : Prop :=
  heap.valueAt view.block = some (.owner view.fields.pointers) ∧ TextsHeld heap view.fields.entries

def OwnerView.blocks (view : OwnerView) : List Nat := view.fields.entries.map Prod.fst ++ [view.block]

def BucketFields.entries {α : Type} (fields : BucketFields α) : List α := fields.name.toList ++ fields.creationDate.toList

def BucketFields.pointers (fields : BucketFields (Nat × List Char)) : BucketFields Nat :=
  ⟨fields.name.map Prod.fst, fields.creationDate.map Prod.fst⟩

def BucketFields.texts (fields : BucketFields (Nat × List Char)) : Bucket :=
  ⟨fields.name.map Prod.snd, fields.creationDate.map Prod.snd⟩

def BucketFields.blocks (fields : BucketFields (Nat × List Char)) : List Nat := fields.entries.map Prod.fst

/-- A decoded `ds3_get_service_response`: its block, its owner, the array's
data and its buckets. -/
structure ServiceView where
  block : Nat
  owner : Option OwnerView
  buckets : Option Nat
  cells : List (BucketFields (Nat × List Char))

def ServiceView.Holds (heap : Heap) (view : ServiceView) : Prop :=
  heap.valueAt view.block = some (.serviceResponse ⟨view.owner.map OwnerView.block, view.buckets, view.cells.length⟩) ∧
    (∀ owner ∈ view.owner, owner.Holds heap) ∧
    SegmentHolds heap view.buckets (view.cells.map fun cell => .bucket cell.pointers) ∧
    TextsHeld heap (view.cells.flatMap BucketFields.entries)

def ServiceView.blocks (view : ServiceView) : List Nat :=
  view.cells.flatMap BucketFields.blocks ++ (view.owner.map OwnerView.blocks).getD [] ++ view.buckets.toList ++
    [view.block]

def ServiceView.texts (view : ServiceView) : GetServiceResponse :=
  ⟨view.owner.map fun owner => owner.fields.texts, view.cells.map BucketFields.texts⟩

/-! ## What the decoder allocates -/

def isOwnerLeaf (childNode : XmlNode) : Bool := decide (childNode.name = "DisplayName") || decide (childNode.name = "ID")

def ownerAllocs (ownerNode : XmlNode) : Nat := 1 + ownerNode.children.countP isOwnerLeaf

def isBucketLeaf (dataPtr : XmlNode) : Bool := decide (dataPtr.name = "CreationDate") || decide (dataPtr.name = "Name")

def bucketsAllocs (children : List XmlNode) : Nat :=
  (if children.isEmpty then 0 else 1) + (children.map fun curr => curr.children.countP isBucketLeaf).sum

def serviceChildAllocs (childNode : XmlNode) : Nat :=
  if childNode.name = "Buckets" then bucketsAllocs childNode.children
  else if childNode.name = "Owner" then ownerAllocs childNode
  else 0

def serviceAllocs (root : XmlNode) : Nat := 1 + (root.children.map serviceChildAllocs).sum

def serviceKept (response : GetServiceResponse) : Nat :=
  (response.buckets.map fun bucket => bucket.name.toList.length + bucket.creationDate.toList.length).sum +
    (response.owner.map fun owner => owner.name.toList.length + owner.id.toList.length + 1).getD 0 +
    (if response.buckets = [] then 0 else 1) + 1

/-! ## The owner -/

theorem copyLeaf_tracks (heap : Heap) (text : Option String) :
    Tracks (Copied heap) (copyText text) (copyLeaf heap text) := by
  cases text with
  | none => trivial
  | some text =>
      have live : ((heap.alloc (.text text.toList)).alloc (.text text.toList)).isLive heap.next = true := by simp
      show Tracks _ (.returns text.toList) ((heap.next + 1, ·) <$> _)
      rw [Heap.free_of_isLive live]
      refine ⟨?_, by simp⟩
      have := ((Extends.alloc heap (.text text.toList)).trans (Extends.alloc _ (.text text.toList))).release
        (le_refl heap.next)
      simpa using this

def OwnerBuilt (start : Heap) (done : List XmlNode) (owner : Owner) (heap : Heap) : Prop :=
  ∃ (fields : OwnerFields (Nat × List Char)) (leaked : List Nat),
    OwnerView.Holds heap ⟨start.next, fields⟩ ∧ fields.texts = owner ∧
    Extends start heap ((OwnerView.blocks ⟨start.next, fields⟩) ++ leaked) ∧
    ((OwnerView.blocks ⟨start.next, fields⟩) ++ leaked).length = 1 + done.countP isOwnerLeaf

theorem parseOwnerChildMem_tracks (start : Heap) (done : List XmlNode) (childNode : XmlNode) (owner : Owner)
    (heap : Heap) (built : OwnerBuilt start done owner heap) :
    Tracks (OwnerBuilt start (done ++ [childNode])) (parseOwnerChild owner childNode)
      (parseOwnerChildMem start.next heap childNode) := by
  obtain ⟨fields, leaked, ⟨holds, texts⟩, rfl, run, count⟩ := built
  have listed : start.next ∈ OwnerView.blocks ⟨start.next, fields⟩ ++ leaked := by simp [OwnerView.blocks]
  have counted : (done ++ [childNode]).countP isOwnerLeaf =
      done.countP isOwnerLeaf + if isOwnerLeaf childNode then 1 else 0 := by
    rw [List.countP_append, List.countP_singleton]
  unfold parseOwnerChild parseOwnerChildMem
  by_cases display : childNode.name = "DisplayName"
  · rw [if_pos display, if_pos display]
    refine Tracks.map_bind (copyLeaf_tracks heap _) fun chars ⟨copy, copied⟩ made => ?_
    obtain ⟨after, stored, run', holds', text, kept⟩ := run.storeCopy listed holds made _
    dsimp only
    rw [stored]
    have moved := perm_swap [] (fields.name.toList.map Prod.fst) ((fields.id.toList.map Prod.fst) ++ [start.next])
      leaked [copy] []
    have perm : (OwnerView.blocks ⟨start.next, fields⟩ ++ leaked ++ [copy]).Perm
        (OwnerView.blocks ⟨start.next, { fields with name := some (copy, chars) }⟩ ++
          (leaked ++ fields.name.toList.map Prod.fst)) := by
      simpa [OwnerView.blocks, OwnerFields.entries] using moved.symm
    refine ⟨{ fields with name := some (copy, chars) }, leaked ++ fields.name.toList.map Prod.fst,
      ⟨by simpa [Value.asOwner, OwnerFields.pointers] using holds', ?_⟩, rfl, run'.perm perm, ?_⟩
    · intro entry member
      simp only [OwnerFields.entries, Option.toList_some, List.singleton_append, List.mem_cons] at member
      rcases member with rfl | member
      · exact text
      · exact texts.frame holds (fun _ same => by cases same) kept entry (by simp [OwnerFields.entries, member])
    · rw [← perm.length_eq, List.length_append, count, counted]; simp [isOwnerLeaf, display]; omega
  rw [if_neg display, if_neg display]
  by_cases ident : childNode.name = "ID"
  · rw [if_pos ident, if_pos ident]
    refine Tracks.map_bind (copyLeaf_tracks heap _) fun chars ⟨copy, copied⟩ made => ?_
    obtain ⟨after, stored, run', holds', text, kept⟩ := run.storeCopy listed holds made _
    dsimp only
    rw [stored]
    have moved := perm_swap (fields.name.toList.map Prod.fst) (fields.id.toList.map Prod.fst) [start.next]
      leaked [copy] []
    have perm : (OwnerView.blocks ⟨start.next, fields⟩ ++ leaked ++ [copy]).Perm
        (OwnerView.blocks ⟨start.next, { fields with id := some (copy, chars) }⟩ ++
          (leaked ++ fields.id.toList.map Prod.fst)) := by
      simpa [OwnerView.blocks, OwnerFields.entries] using moved.symm
    refine ⟨{ fields with id := some (copy, chars) }, leaked ++ fields.id.toList.map Prod.fst,
      ⟨by simpa [Value.asOwner, OwnerFields.pointers] using holds', ?_⟩, rfl, run'.perm perm, ?_⟩
    · intro entry member
      simp only [OwnerFields.entries, Option.toList_some, List.mem_append, List.mem_singleton] at member
      rcases member with member | rfl
      · exact texts.frame holds (fun _ same => by cases same) kept entry (by simp [OwnerFields.entries, member])
      · exact text
    · rw [← perm.length_eq, List.length_append, count, counted]; simp [isOwnerLeaf, ident]; omega
  rw [if_neg ident, if_neg ident]
  exact ⟨fields, leaked, ⟨holds, texts⟩, rfl, run, by rw [count, counted]; simp [isOwnerLeaf, display, ident]⟩

theorem parseOwnerMem_tracks (heap : Heap) (ownerNode : XmlNode) :
    Tracks (fun owner (built : Nat × Heap) => built.1 = heap.next ∧ OwnerBuilt heap ownerNode.children owner built.2)
      (parseOwner ownerNode) (parseOwnerMem heap ownerNode) := by
  refine Tracks.map_right (Tracks.foldlM (OwnerBuilt heap) _ _ (parseOwnerChildMem_tracks heap) ownerNode.children []
    ⟨none, none⟩ _ ⟨⟨none, none⟩, [], ⟨by simp [OwnerFields.pointers], TextsHeld.nil _⟩, rfl,
      by simpa [OwnerView.blocks, OwnerFields.entries] using Extends.alloc heap _, rfl⟩) fun _ _ built => ⟨rfl, built⟩

/-! ## The buckets -/

def BucketBuilt (start : Heap) (done : List XmlNode) (bucket : Bucket) (state : BucketFields Nat × Heap) : Prop :=
  ∃ (fields : BucketFields (Nat × List Char)) (leaked : List Nat), state.1 = fields.pointers ∧
    TextsHeld state.2 fields.entries ∧ fields.texts = bucket ∧ Extends start state.2 (fields.blocks ++ leaked) ∧
    (fields.blocks ++ leaked).length = done.countP isBucketLeaf

theorem parseBucketChildMem_tracks (start : Heap) (done : List XmlNode) (dataPtr : XmlNode) (bucket : Bucket)
    (state : BucketFields Nat × Heap) (built : BucketBuilt start done bucket state) :
    Tracks (BucketBuilt start (done ++ [dataPtr])) (parseBucketChild bucket dataPtr)
      (parseBucketChildMem state dataPtr) := by
  obtain ⟨ptrs, heap⟩ := state
  obtain ⟨fields, leaked, rfl, texts, rfl, run, count⟩ := built
  have counted : (done ++ [dataPtr]).countP isBucketLeaf =
      done.countP isBucketLeaf + if isBucketLeaf dataPtr then 1 else 0 := by
    rw [List.countP_append, List.countP_singleton]
  unfold parseBucketChild parseBucketChildMem
  by_cases dated : dataPtr.name = "CreationDate"
  · rw [if_pos dated, if_pos dated]
    refine Tracks.map (copyLeaf_tracks heap _) fun chars ⟨copy, copied⟩ ⟨copyRun, text⟩ => ?_
    dsimp only at copyRun text ⊢
    have perm : (fields.blocks ++ leaked ++ [copy]).Perm
        (BucketFields.blocks { fields with creationDate := some (copy, chars) } ++
          (leaked ++ fields.creationDate.toList.map Prod.fst)) := by
      simpa [BucketFields.blocks, BucketFields.entries] using
        (perm_swap (fields.name.toList.map Prod.fst) (fields.creationDate.toList.map Prod.fst) [] leaked [copy] []).symm
    refine ⟨{ fields with creationDate := some (copy, chars) }, leaked ++ fields.creationDate.toList.map Prod.fst, rfl,
      ?_, rfl, (run.trans copyRun).perm perm, ?_⟩
    · intro entry member
      simp only [BucketFields.entries, Option.toList_some, List.mem_append, List.mem_singleton] at member
      rcases member with member | rfl
      · exact texts.keeps copyRun.keeps entry (by simp [BucketFields.entries, member])
      · exact text
    · rw [← perm.length_eq, List.length_append, count, counted]; simp [isBucketLeaf, dated]
  rw [if_neg dated, if_neg dated]
  by_cases named : dataPtr.name = "Name"
  · rw [if_pos named, if_pos named]
    refine Tracks.map (copyLeaf_tracks heap _) fun chars ⟨copy, copied⟩ ⟨copyRun, text⟩ => ?_
    dsimp only at copyRun text ⊢
    have perm : (fields.blocks ++ leaked ++ [copy]).Perm
        (BucketFields.blocks { fields with name := some (copy, chars) } ++
          (leaked ++ fields.name.toList.map Prod.fst)) := by
      simpa [BucketFields.blocks, BucketFields.entries] using
        (perm_swap [] (fields.name.toList.map Prod.fst) (fields.creationDate.toList.map Prod.fst) leaked [copy] []).symm
    refine ⟨{ fields with name := some (copy, chars) }, leaked ++ fields.name.toList.map Prod.fst, rfl,
      ?_, rfl, (run.trans copyRun).perm perm, ?_⟩
    · intro entry member
      simp only [BucketFields.entries, Option.toList_some, List.singleton_append, List.mem_cons] at member
      rcases member with rfl | member
      · exact text
      · exact texts.keeps copyRun.keeps entry (by simp [BucketFields.entries, member])
    · rw [← perm.length_eq, List.length_append, count, counted]; simp [isBucketLeaf, named]
  rw [if_neg named, if_neg named]
  exact ⟨fields, leaked, rfl, texts, rfl, run, by rw [count, counted]; simp [isBucketLeaf, dated, named]⟩

@[simp] theorem bucketsAllocs_nil : bucketsAllocs [] = 0 := rfl

theorem bucketsAllocs_singleton (curr : XmlNode) :
    bucketsAllocs [curr] = 1 + curr.children.countP isBucketLeaf := by
  simp [bucketsAllocs]

theorem bucketsAllocs_append {done : List XmlNode} (nonempty : done ≠ []) (curr : XmlNode) :
    bucketsAllocs (done ++ [curr]) = bucketsAllocs done + curr.children.countP isBucketLeaf := by
  cases done with
  | nil => exact absurd rfl nonempty
  | cons first rest => simp [bucketsAllocs]; omega

def BucketsBuilt (start : Heap) (done : List XmlNode) (buckets : List Bucket) (heap : Heap) : Prop :=
  ∃ (data : Option Nat) (cells : List (BucketFields (Nat × List Char))) (leaked : List Nat),
    heap.valueAt start.next = some (.garray data cells.length) ∧
    SegmentHolds heap data (cells.map fun cell => .bucket cell.pointers) ∧
    TextsHeld heap (cells.flatMap BucketFields.entries) ∧ cells.map BucketFields.texts = buckets ∧
    (data = none ↔ done = []) ∧ cells.length = done.length ∧
    Extends start heap (start.next :: (cells.flatMap BucketFields.blocks ++ data.toList ++ leaked)) ∧
    (cells.flatMap BucketFields.blocks ++ data.toList ++ leaked).length = bucketsAllocs done

theorem parseBucketMem_tracks (start : Heap) (done : List XmlNode) (curr : XmlNode) (buckets : List Bucket)
    (heap : Heap) (built : BucketsBuilt start done buckets heap) :
    Tracks (BucketsBuilt start (done ++ [curr]))
      ((fun bucket => buckets ++ [bucket]) <$> curr.children.foldlM parseBucketChild ⟨none, none⟩)
      (parseBucketMem start.next heap curr) := by
  obtain ⟨data, cells, leaked, header, segment, texts, rfl, empty, lengths, run, count⟩ := built
  have headerListed : start.next ∈ start.next :: (cells.flatMap BucketFields.blocks ++ data.toList ++ leaked) :=
    List.mem_cons_self _ _
  have inner := Tracks.foldlM (BucketBuilt heap) _ _ (parseBucketChildMem_tracks heap) curr.children []
    ⟨none, none⟩ (⟨none, none⟩, heap) ⟨⟨none, none⟩, [], rfl, TextsHeld.nil _, rfl,
      by simpa [BucketFields.blocks, BucketFields.entries] using Extends.refl heap, rfl⟩
  rw [List.nil_append] at inner
  unfold parseBucketMem
  refine Tracks.map_bind inner fun bucket ⟨ptrs, filled⟩ ⟨fields, bucketLeaked, same, bucketTexts, made, bucketRun,
    bucketCount⟩ => ?_
  dsimp only at same bucketTexts bucketRun ⊢
  subst same made
  have below : start.next < heap.next := run.lt_next headerListed
  have headerLive : filled.isLive start.next = true := (bucketRun.keeps.live _ below).trans (run.isLive headerListed)
  have joined := run.trans bucketRun
  have grows := bucketRun.keeps.grows
  cases data with
  | none =>
      obtain rfl : cells = [] := by simpa [SegmentHolds] using segment
      obtain rfl : done = [] := empty.mp rfl
      rw [gArrayAppendVal_first headerLive (bucketRun.keeps.valueAt header)]
      have headerNe : start.next ≠ filled.next := by have := bucketRun.keeps.grows; omega
      have grown : (filled.alloc (.cells [.bucket fields.pointers])).valueAt start.next = some (.garray none 0) := by
        simp [headerNe, bucketRun.keeps.valueAt header]
      refine ⟨some filled.next, [fields], leaked ++ bucketLeaked, ?_, ?_, ?_, rfl, ⟨nofun, nofun⟩, rfl,
        ((joined.trans (Extends.alloc filled _)).overwrite (le_refl _) _).perm ?_, ?_⟩
      · rw [Heap.valueAt_overwrite, if_pos ⟨rfl, by simp; omega⟩]; rfl
      · show (Heap.overwrite _ _ _).valueAt filled.next = _
        rw [Heap.valueAt_overwrite, if_neg fun same => headerNe same.1.symm]; simp
      · simpa using (bucketTexts.keeps (Extends.alloc filled _).keeps).overwrite grown (fun _ same => by cases same) _
      · refine List.perm_iff_count.mpr fun q => ?_
        simp only [List.flatMap_nil, List.flatMap_cons, List.append_nil, List.nil_append, Option.toList_none,
          Option.toList_some, List.cons_append, List.count_cons, List.count_append]
        omega
      · simp only [List.flatMap_nil, List.flatMap_cons, List.append_nil, List.nil_append, Option.toList_none,
          Option.toList_some, List.length_append, List.length_singleton, bucketsAllocs_singleton, bucketsAllocs_nil] at count bucketCount ⊢
        omega
  | some data =>
      have dataListed : data ∈ start.next :: (cells.flatMap BucketFields.blocks ++ [data] ++ leaked) := by simp
      have dataLive : filled.isLive data = true :=
        (bucketRun.keeps.live _ (run.lt_next dataListed)).trans (run.isLive dataListed)
      have headerNe : start.next ≠ data := fun same =>
        (List.nodup_cons.mp run.accounts.nodup).1 (same ▸ by simp)
      have segment' : filled.valueAt data = some (.cells (cells.map fun cell => .bucket cell.pointers)) :=
        bucketRun.keeps.valueAt segment
      rw [gArrayAppendVal_grow headerLive (by rw [List.length_map]; exact bucketRun.keeps.valueAt header) dataLive
        segment']
      have grown : (filled.overwrite data (.cells ((cells.map fun cell => .bucket cell.pointers) ++
          [.bucket fields.pointers]))).valueAt start.next = some (.garray (some data) cells.length) := by
        simp [headerNe, bucketRun.keeps.valueAt header]
      refine ⟨some data, cells ++ [fields], leaked ++ bucketLeaked, ?_, ?_, ?_, by simp, ⟨nofun, by simp⟩,
        by simp [lengths],
        ((joined.overwrite (run.le dataListed) _).overwrite (le_refl _) _).perm ?_, ?_⟩
      · rw [Heap.valueAt_overwrite, if_pos ⟨rfl, by simp; omega⟩]; simp
      · show (Heap.overwrite _ _ _).valueAt data = _
        rw [Heap.valueAt_overwrite, if_neg fun same => headerNe same.1.symm]; simp [List.map_append,
          Heap.lt_next_of_valueAt segment']
      · rw [List.flatMap_append]
        refine TextsHeld.append ?_ ?_
        · exact ((texts.keeps bucketRun.keeps).overwrite segment' (fun _ same => by cases same) _).overwrite grown
            (fun _ same => by cases same) _
        · simpa using (bucketTexts.overwrite segment' (fun _ same => by cases same) _).overwrite grown
            (fun _ same => by cases same) _
      · refine List.perm_iff_count.mpr fun q => ?_
        simp only [List.flatMap_append, List.flatMap_cons, List.flatMap_nil, List.append_nil, Option.toList_some,
          List.cons_append, List.count_cons, List.count_append]
        omega
      · rw [bucketsAllocs_append (fun none => nomatch empty.mpr none) curr]
        simp only [List.flatMap_append, List.flatMap_cons, List.flatMap_nil, List.append_nil, Option.toList_some,
          List.length_append, List.length_singleton] at count bucketCount ⊢
        omega

/-! ## The listing -/

def ServiceBuilt (start : Heap) (done : List XmlNode) (response : GetServiceResponse) (heap : Heap) : Prop :=
  ∃ (view : ServiceView) (leaked : List Nat), view.block = start.next ∧ view.Holds heap ∧ view.texts = response ∧
    (view.buckets = none ↔ view.cells = []) ∧ Extends start heap (view.blocks ++ leaked) ∧
    (view.blocks ++ leaked).length = 1 + (done.map serviceChildAllocs).sum

theorem ServiceView.holds_frame {heap after : Heap} {view : ServiceView} (holds : view.Holds heap)
    (kept : ∀ q, q ≠ view.block → q < heap.next → after.valueAt q = heap.valueAt q) :
    (∀ owner ∈ view.owner, owner.Holds after) ∧
      SegmentHolds after view.buckets (view.cells.map fun cell => .bucket cell.pointers) ∧
      TextsHeld after (view.cells.flatMap BucketFields.entries) := by
  obtain ⟨response, owners, segment, texts⟩ := holds
  have keptValue : ∀ {q : Nat} {value : Value}, heap.valueAt q = some value →
      (∀ fields, value ≠ .serviceResponse fields) → after.valueAt q = some value := fun {q value} held differ => by
    have other : q ≠ view.block := fun same => differ _ (Option.some.inj (held.symm.trans (same ▸ response)))
    rw [kept q other (Heap.lt_next_of_valueAt held), held]
  refine ⟨fun owner member => ⟨keptValue (owners owner member).1 nofun, ?_⟩, ?_,
    texts.frame response nofun kept⟩
  · exact (owners owner member).2.frame response nofun kept
  · cases buckets : view.buckets with
    | none => simpa [SegmentHolds, buckets] using segment
    | some data => simp only [SegmentHolds, buckets] at segment ⊢; exact keptValue segment nofun

theorem getServiceChildMem_tracks (start : Heap) (done : List XmlNode) (childNode : XmlNode)
    (response : GetServiceResponse) (heap : Heap) (built : ServiceBuilt start done response heap) :
    Tracks (ServiceBuilt start (done ++ [childNode])) (getServiceChild response childNode)
      (getServiceChildMem start.next heap childNode) := by
  obtain ⟨view, leaked, block, holds, rfl, unbuilt, run, count⟩ := built
  have listed : view.block ∈ view.blocks ++ leaked := by simp [ServiceView.blocks]
  have below : view.block < heap.next := run.lt_next listed
  have summed : ((done ++ [childNode]).map serviceChildAllocs).sum =
      (done.map serviceChildAllocs).sum + serviceChildAllocs childNode := by simp
  unfold getServiceChild getServiceChildMem
  rw [← block]
  by_cases named : childNode.name = "Buckets"
  · rw [if_pos named, if_pos named]
    unfold parseBuckets parseBucketsMem
    have loop := Tracks.foldlM (BucketsBuilt heap) _ _ (parseBucketMem_tracks heap) childNode.children [] []
      (heap.alloc (.garray none 0)) ⟨none, [], [], by simp, rfl, TextsHeld.nil _, rfl, ⟨fun _ => rfl, fun _ => rfl⟩, rfl,
        by simpa using Extends.alloc heap _, rfl⟩
    rw [List.nil_append] at loop
    refine Tracks.map_bind loop fun buckets filled ⟨data, cells, bucketsLeaked, header, segment, texts, made, absent,
      lengths, bucketsRun, bucketsCount⟩ => ?_
    subst made
    have headerLive := bucketsRun.isLive (List.mem_cons_self _ _)
    have blockLive : filled.isLive view.block = true := (bucketsRun.keeps.live _ below).trans (run.isLive listed)
    have blockHolds := bucketsRun.keeps.valueAt holds.1
    rw [Heap.read_of_isLive headerLive header, Access.ok_bind, Heap.store_of_isLive blockLive blockHolds,
      Access.ok_bind, Heap.free_of_isLive (by rw [Heap.isLive_overwrite]; exact headerLive)]
    have ne : view.block ≠ heap.next := Nat.ne_of_lt below
    have grows := bucketsRun.keeps.grows
    have kept : ∀ q, q ≠ view.block → q < heap.next →
        (((filled.overwrite view.block (.serviceResponse ⟨view.owner.map OwnerView.block, data, cells.length⟩)).release
          heap.next).valueAt q = heap.valueAt q) := fun q differ qBelow => by
      rw [Heap.valueAt_release, Heap.valueAt_overwrite, if_neg fun same => differ same.1,
        bucketsRun.keeps.value q qBelow]
    obtain ⟨owners, -, -⟩ := ServiceView.holds_frame holds kept
    have erased : ((view.blocks ++ leaked) ++ heap.next :: (cells.flatMap BucketFields.blocks ++ data.toList ++
        bucketsLeaked)).erase heap.next = view.blocks ++ leaked ++ (cells.flatMap BucketFields.blocks ++
          data.toList ++ bucketsLeaked) := by
      rw [List.erase_append_right _ fun member => Nat.lt_irrefl _ (run.lt_next member), List.erase_cons_head]
    have perm : (view.blocks ++ leaked ++ (cells.flatMap BucketFields.blocks ++ data.toList ++ bucketsLeaked)).Perm
        (ServiceView.blocks { view with buckets := data, cells := cells } ++
          (leaked ++ (view.cells.flatMap BucketFields.blocks ++ view.buckets.toList) ++ bucketsLeaked)) :=
      List.perm_iff_count.mpr fun q => by simp only [ServiceView.blocks, List.count_append]; omega
    have final := ((run.trans bucketsRun).overwrite block.ge
      (.serviceResponse ⟨view.owner.map OwnerView.block, data, cells.length⟩)).release run.keeps.grows
    rw [erased] at final
    refine ⟨{ view with buckets := data, cells := cells }, _, block, ⟨?_, owners, ?_, ?_⟩, rfl,
      absent.trans (by rw [← List.length_eq_zero, ← lengths, List.length_eq_zero]), final.perm perm, ?_⟩
    · simp [Value.asService, Value.asArray, show view.block < filled.next by omega, ne]
    · cases data with
      | none => exact segment
      | some data =>
          show Heap.valueAt _ data = _
          rw [Heap.valueAt_release, Heap.valueAt_overwrite_of_ne segment blockHolds nofun]
    · exact (texts.overwrite blockHolds nofun _).release _
    · rw [← perm.length_eq, List.length_append, count, summed, bucketsCount]
      simp [serviceChildAllocs, named]; omega
  rw [if_neg named, if_neg named]
  by_cases isOwner : childNode.name = "Owner"
  · rw [if_pos isOwner, if_pos isOwner]
    refine Tracks.map_bind (parseOwnerMem_tracks heap childNode) fun owner ⟨ownerBlock, owned⟩
      ⟨same, fields, ownerLeaked, ownerHolds, made, ownerRun, ownerCount⟩ => ?_
    dsimp only at same ownerHolds ownerRun ownerCount ⊢
    subst same made
    have blockLive : owned.isLive view.block = true := (ownerRun.keeps.live _ below).trans (run.isLive listed)
    have blockHolds := ownerRun.keeps.valueAt holds.1
    rw [Heap.store_of_isLive blockLive blockHolds]
    have kept : ∀ q, q ≠ view.block → q < heap.next →
        ((owned.overwrite view.block (.serviceResponse ⟨some heap.next, view.buckets, view.cells.length⟩)).valueAt q =
          heap.valueAt q) := fun q differ qBelow => by
      rw [Heap.valueAt_overwrite, if_neg fun same => differ same.1, ownerRun.keeps.value q qBelow]
    obtain ⟨-, segment, texts⟩ := ServiceView.holds_frame holds kept
    have perm : (view.blocks ++ leaked ++ (OwnerView.blocks ⟨heap.next, fields⟩ ++ ownerLeaked)).Perm
        (ServiceView.blocks { view with owner := some ⟨heap.next, fields⟩ } ++
          (leaked ++ (view.owner.map OwnerView.blocks).getD [] ++ ownerLeaked)) :=
      List.perm_iff_count.mpr fun q => by
        simp only [ServiceView.blocks, Option.map_some', Option.getD_some, List.count_append]; omega
    refine ⟨{ view with owner := some ⟨heap.next, fields⟩ }, _, block, ⟨?_, ?_, segment, texts⟩, rfl, unbuilt,
      ((run.trans ownerRun).overwrite block.ge _).perm perm, ?_⟩
    · simp [Value.asService, show view.block < owned.next by have := ownerRun.keeps.grows; omega]
    · intro ownerView member
      obtain rfl : ownerView = ⟨heap.next, fields⟩ := (Option.some.inj member).symm
      refine ⟨Heap.valueAt_overwrite_of_ne ownerHolds.1 blockHolds nofun _, ownerHolds.2.overwrite blockHolds nofun _⟩
    · rw [← perm.length_eq, List.length_append, count, summed, ownerCount]
      simp [serviceChildAllocs, named, isOwner, ownerAllocs]; omega
  rw [if_neg isOwner, if_neg isOwner]
  exact ⟨view, leaked, block, holds, rfl, unbuilt, run, by simp [count, serviceChildAllocs, named, isOwner]⟩

theorem getServiceBodyMem_tracks (heap : Heap) (root : XmlNode) :
    Tracks (fun response (built : Nat × Heap) => built.1 = heap.next ∧ ServiceBuilt heap root.children response built.2)
      (getServiceBody root) (getServiceBodyMem heap root) := by
  have start : ServiceBuilt heap [] ⟨none, []⟩ (heap.alloc (.serviceResponse ⟨none, none, 0⟩)) :=
    ⟨⟨heap.next, none, none, []⟩, [], rfl, ⟨by simp, by simp, rfl, TextsHeld.nil _⟩, rfl, ⟨fun _ => rfl, fun _ => rfl⟩,
      by simpa [ServiceView.blocks] using Extends.alloc heap _, rfl⟩
  exact Tracks.map_right (Tracks.foldlM (ServiceBuilt heap) _ _ (getServiceChildMem_tracks heap) root.children [] _ _
    start) fun _ _ built => ⟨rfl, built⟩

/-! ## Freeing a listing -/

theorem foldlM_freeBucket (heap : Heap) (cells : List (BucketFields (Nat × List Char))) :
    (cells.map fun cell => Cell.bucket cell.pointers).foldlM
        (fun heap cell => gFree heap cell.asBucket.name >>= (gFree · cell.asBucket.creationDate)) heap =
      (cells.flatMap BucketFields.blocks).foldlM Heap.free heap := by
  induction cells generalizing heap with
  | nil => rfl
  | cons cell rest ih =>
      simp only [List.map_cons, List.foldlM_cons, ih, List.flatMap_cons, List.foldlM_append]
      rw [Cell.asBucket, gFree_gFree]
      obtain ⟨name, date⟩ := cell
      cases name <;> cases date <;> rfl

theorem ds3FreeOwner_eq_foldlM {heap : Heap} {owner : Option OwnerView}
    (holds : ∀ view ∈ owner, heap.valueAt view.block = some (.owner view.fields.pointers))
    (live : ∀ view ∈ owner, heap.isLive view.block = true) :
    ds3FreeOwner heap (owner.map OwnerView.block) = ((owner.map OwnerView.blocks).getD []).foldlM Heap.free heap := by
  cases owner with
  | none => rfl
  | some view =>
      simp only [Option.map_some', Option.getD_some, ds3FreeOwner,
        Heap.read_of_isLive (live view rfl) (holds view rfl), Access.ok_bind, Value.asOwner, OwnerView.blocks,
        OwnerFields.entries, OwnerFields.pointers, List.map_append, List.foldlM_append, gFree_eq_foldlM,
        foldlM_free_singleton]
      cases view.fields.name <;> cases view.fields.id <;> rfl

theorem ds3FreeServiceResponse_frees {heap : Heap} {view : ServiceView} (holds : view.Holds heap)
    (distinct : view.blocks.Nodup) (live : ∀ p ∈ view.blocks, heap.isLive p = true) :
    ds3FreeServiceResponse heap (some view.block) = .ok (heap.releaseAll view.blocks) := by
  obtain ⟨response, owners, segment, -⟩ := holds
  have cellsRead : readCells heap view.buckets view.cells.length =
      .ok (view.cells.map fun cell => .bucket cell.pointers) := by
    cases buckets : view.buckets with
    | none =>
        have empty : view.cells = [] := by simpa [SegmentHolds, buckets] using segment
        simp [readCells, empty]
    | some data =>
        rw [buckets] at segment
        simp [readCells, Heap.read_of_isLive (live data (by simp [ServiceView.blocks, buckets])) segment,
          Value.asCells]
  have split : view.blocks = view.cells.flatMap BucketFields.blocks ++
      ((view.owner.map OwnerView.blocks).getD [] ++ (view.buckets.toList ++ [view.block])) := by
    simp only [ServiceView.blocks, List.append_assoc]
  rw [split] at distinct live
  obtain ⟨stringsNodup, restNodup, apart⟩ := List.nodup_append.mp distinct
  have restLive : ∀ p ∈ (view.owner.map OwnerView.blocks).getD [] ++ (view.buckets.toList ++ [view.block]),
      (heap.releaseAll (view.cells.flatMap BucketFields.blocks)).isLive p = true := fun p member => by
    rw [Heap.isLive_releaseAll, live p (List.mem_append_right _ member)]
    simpa using fun string => apart string member
  rw [ds3FreeServiceResponse, Heap.read_of_isLive (live _ (by simp)) response, Access.ok_bind]
  simp only [Value.asService]
  rw [cellsRead, Access.ok_bind, foldlM_freeBucket,
    Heap.foldlM_free stringsNodup fun p member => live p (List.mem_append_left _ member), Access.ok_bind,
    ds3FreeOwner_eq_foldlM (fun owner member => by rw [Heap.valueAt_releaseAll]; exact (owners owner member).1)
      fun owner member => restLive _ (by simp [Option.mem_def.mp member, OwnerView.blocks]),
    split, Heap.releaseAll_append, ← Heap.foldlM_free restNodup restLive]
  simp only [List.foldlM_append, gFree_eq_foldlM, foldlM_free_singleton, bind_assoc]

/-! ## Decoding then freeing -/

theorem ServiceView.length_blocks {view : ServiceView} (unbuilt : view.buckets = none ↔ view.cells = []) :
    view.blocks.length = serviceKept view.texts := by
  obtain ⟨block, owner, buckets, cells⟩ := view
  have perBucket : ∀ cell : BucketFields (Nat × List Char),
      cell.blocks.length = cell.texts.name.toList.length + cell.texts.creationDate.toList.length :=
    fun ⟨name, date⟩ => by cases name <;> cases date <;> rfl
  simp only [ServiceView.blocks, ServiceView.texts, serviceKept, List.length_append, List.length_flatMap, List.map_map,
    Function.comp_def, perBucket, List.length_singleton, List.map_eq_nil_iff] at unbuilt ⊢
  cases owner with
  | none => cases buckets <;> simp_all
  | some owner =>
      have perOwner :
          owner.blocks.length = owner.fields.texts.name.toList.length + owner.fields.texts.id.toList.length + 1 := by
        obtain ⟨_, ⟨name, id⟩⟩ := owner
        cases name <;> cases id <;> rfl
      cases buckets <;> simp_all

/-- The decoding of a listing builds, at the block after the heap, a response
that holds the texts the value model decodes, in blocks it allocated and that
are still allocated, and it crashes exactly when the value model does: no block
is read after it is freed or freed twice. -/
theorem getServiceBodyMem_refines (heap : Heap) (root : XmlNode) :
    Tracks (fun response (built : Nat × Heap) =>
        ∃ (view : ServiceView) (leaked : List Nat), view.block = built.1 ∧ view.Holds built.2 ∧
          view.texts = response ∧ Extends heap built.2 (view.blocks ++ leaked))
      (getServiceBody root) (getServiceBodyMem heap root) :=
  (getServiceBodyMem_tracks heap root).mono fun _ _ ⟨placed, view, leaked, block, holds, texts, _, run, _⟩ =>
    ⟨view, leaked, block.trans placed.symm, holds, texts, run⟩

/-- A listing that decodes, freed with `ds3_free_service_response`, leaves
allocated exactly the copies the decoder dropped: as many blocks as the decoder
allocated less those the listing holds. -/
theorem getServiceBodyMem_free_leaks (heap : Heap) (root : XmlNode) (response : GetServiceResponse)
    (decoded : getServiceBody root = .returns response) :
    ∃ built freed leaked, getServiceBodyMem heap root = .ok (heap.next, built) ∧
      ds3FreeServiceResponse built (some heap.next) = .ok freed ∧ Extends heap freed leaked ∧
      leaked.length + serviceKept response = serviceAllocs root := by
  obtain ⟨⟨placed, built⟩, memory, rfl, view, leaked, block, holds, rfl, unbuilt, run, count⟩ :=
    (getServiceBodyMem_tracks heap root).ok_of_returns decoded
  refine ⟨built, _, leaked, memory, block ▸ ds3FreeServiceResponse_frees holds
    (List.nodup_append.mp run.accounts.nodup).1 fun p member => run.isLive (List.mem_append_left _ member),
    run.releaseAll, ?_⟩
  rw [← ServiceView.length_blocks unbuilt, serviceAllocs, ← count, List.length_append]
  omega

def repeatedIdListing : XmlNode :=
  .element "ListAllMyBucketsResult" []
    [.element "Owner" [] [.element "ID" [] [.text "o"], .element "ID" [] [.text "p"]],
      .element "Buckets" [] [.element "Bucket" [] [.element "Name" [] [.text "b"]]]]

/-- Six blocks are allocated, the listing holds five, and the first copy of the
`ID` text is left over. -/
theorem getServiceBodyMem_free_leaks_repeatedId :
    getServiceBody repeatedIdListing = .returns ⟨some ⟨none, some "p".toList⟩, [⟨some "b".toList, none⟩]⟩ ∧
      serviceAllocs repeatedIdListing = 6 ∧ serviceKept ⟨some ⟨none, some "p".toList⟩, [⟨some "b".toList, none⟩]⟩ = 5 ∧
      ∃ built freed leaked, getServiceBodyMem Heap.empty repeatedIdListing = .ok (Heap.empty.next, built) ∧
        ds3FreeServiceResponse built (some Heap.empty.next) = .ok freed ∧ Extends Heap.empty freed leaked ∧
        leaked.length + serviceKept ⟨some ⟨none, some "p".toList⟩, [⟨some "b".toList, none⟩]⟩ =
          serviceAllocs repeatedIdListing :=
  ⟨by decide, by decide, by decide, getServiceBodyMem_free_leaks Heap.empty repeatedIdListing
    ⟨some ⟨none, some "p".toList⟩, [⟨some "b".toList, none⟩]⟩ (by decide)⟩

end Ds3.ResponseMemory
