import Ds3.HeaderMemory.Model

/-! # The heap of the decoded responses

`ds3_get_service` hands back a structure it builds on the heap: the response
record, the data of the `GArray` of buckets, a `ds3_owner` record and
`g_strdup` copies of the texts it reads.  Every text the decoder reads comes
from `xmlNodeListGetString`, which allocates it, and goes back with `xmlFree`
once it is copied.  `ds3_free_service_response` releases what the decoder
built.

The heap is a list of blocks, as for the header callback: a pointer is a
block's index, freeing a block that is not allocated is a double free, and
reading or writing one is a use after free.  A block holds a C string, a
`GArray` header, the data of a `GArray`, or one of the records, with the
pointer fields the free functions read.

Two relations carry the results.  `Tracks` relates a decoder's memory run to
its run in the value model: it completes where the value run returns, with
related results, reads a null pointer where the value run does, and never
touches a freed block.  `Accounts base heap blocks` is the ledger: the blocks
from `base` on that are allocated are `blocks`, each listed once; `Extends`
adds the frame, what a run leaves of the blocks below its start. -/

set_option autoImplicit false

namespace Ds3.ResponseMemory

open Ds3 Ds3.HeaderMemory

/-! ## Records and blocks -/

/-- The string fields of a `ds3_owner`: pointers in a block, and in a view of
the decoded owner the pointer with the text it holds. -/
structure OwnerFields (α : Type) where
  name : Option α
  id : Option α
deriving DecidableEq

/-- The string fields of a `ds3_bucket`. -/
structure BucketFields (α : Type) where
  name : Option α
  creationDate : Option α
deriving DecidableEq

/-- The pointer fields of a `ds3_get_service_response`, with `num_buckets`. -/
structure ServiceFields where
  owner : Option Nat
  buckets : Option Nat
  numBuckets : Nat
deriving DecidableEq

/-- An element of the array `_parse_buckets` grows: a `ds3_bucket`. -/
inductive Cell where
  | bucket (fields : BucketFields Nat)
deriving DecidableEq

/-- What a block holds. -/
inductive Value where
  /-- A C string. -/
  | text (chars : List Char)
  /-- A `GArray` header: where its data is and how many elements it holds. -/
  | garray (data : Option Nat) (len : Nat)
  /-- The data of a `GArray`. -/
  | cells (cells : List Cell)
  | owner (fields : OwnerFields Nat)
  | serviceResponse (fields : ServiceFields)
deriving DecidableEq

namespace Value

def asOwner : Value → OwnerFields Nat
  | .owner fields => fields
  | _ => ⟨none, none⟩

def asService : Value → ServiceFields
  | .serviceResponse fields => fields
  | _ => ⟨none, none, 0⟩

def asArray : Value → Option Nat × Nat
  | .garray data len => (data, len)
  | _ => (none, 0)

def asCells : Value → List Cell
  | .cells elements => elements
  | _ => []

end Value

/-- A block, and whether it is still allocated. -/
structure Block where
  value : Value
  live : Bool
deriving DecidableEq

/-- The blocks the client allocated, in the order it allocated them. -/
structure Heap where
  blocks : List Block
deriving DecidableEq

namespace Heap

def empty : Heap := ⟨[]⟩

def next (heap : Heap) : Nat := heap.blocks.length

def alloc (heap : Heap) (value : Value) : Heap := ⟨heap.blocks ++ [⟨value, true⟩]⟩

def valueAt (heap : Heap) (p : Nat) : Option Value := heap.blocks[p]?.map Block.value

def isLive (heap : Heap) (p : Nat) : Bool := (heap.blocks[p]?.map Block.live).getD false

def release (heap : Heap) (p : Nat) : Heap :=
  ⟨heap.blocks.modify (fun block => { block with live := false }) p⟩

def overwrite (heap : Heap) (p : Nat) (value : Value) : Heap :=
  ⟨heap.blocks.modify (fun block => { block with value }) p⟩

def free (heap : Heap) (p : Nat) : Access Heap :=
  if heap.isLive p then .ok (heap.release p) else .doubleFree p

def read (heap : Heap) (p : Nat) : Access Value :=
  if heap.isLive p then .ok ((heap.valueAt p).getD (.text [])) else .useAfterFree p

def write (heap : Heap) (p : Nat) (value : Value) : Access Heap :=
  if heap.isLive p then .ok (heap.overwrite p value) else .useAfterFree p

def store (heap : Heap) (p : Nat) (update : Value → Value) : Access Heap :=
  heap.read p >>= fun value => heap.write p (update value)

def textAt (heap : Heap) (p : Nat) : List Char :=
  match heap.valueAt p with
  | some (.text chars) => chars
  | _ => []

def releaseAll (heap : Heap) (ps : List Nat) : Heap := ps.foldl release heap

end Heap

def gFree (heap : Heap) : Option Nat → Access Heap
  | none => pure heap
  | some p => heap.free p

/-! ## What each primitive does -/

instance : LawfulMonad Access :=
  LawfulMonad.mk' Access (fun x => by cases x <;> rfl) (fun _ _ => rfl) (fun x _ _ => by cases x <;> rfl)

namespace Heap

@[simp] theorem valueAt_alloc (heap : Heap) (value : Value) (p : Nat) :
    (heap.alloc value).valueAt p = if p = heap.next then some value else heap.valueAt p := by
  simp only [alloc, valueAt, next, Memory.getElem?_push]
  split <;> rfl

@[simp] theorem isLive_alloc (heap : Heap) (value : Value) (p : Nat) :
    (heap.alloc value).isLive p = if p = heap.next then true else heap.isLive p := by
  simp only [alloc, isLive, next, Memory.getElem?_push]
  split <;> rfl

@[simp] theorem next_alloc (heap : Heap) (value : Value) : (heap.alloc value).next = heap.next + 1 := by
  simp [alloc, next]

@[simp] theorem valueAt_release (heap : Heap) (p q : Nat) : (heap.release p).valueAt q = heap.valueAt q := by
  simp only [release, valueAt, List.getElem?_modify]
  cases heap.blocks[q]? <;> simp
  split <;> rfl

@[simp] theorem isLive_release (heap : Heap) (p q : Nat) :
    (heap.release p).isLive q = (heap.isLive q && q != p) := by
  simp only [release, isLive, List.getElem?_modify]
  cases heap.blocks[q]? with
  | none => simp
  | some block => by_cases same : p = q <;> simp [same, Ne.symm]

@[simp] theorem next_release (heap : Heap) (p : Nat) : (heap.release p).next = heap.next := by
  simp [release, next]

@[simp] theorem valueAt_overwrite (heap : Heap) (p q : Nat) (value : Value) :
    (heap.overwrite p value).valueAt q = if q = p ∧ q < heap.next then some value else heap.valueAt q := by
  simp only [overwrite, valueAt, List.getElem?_modify, next]
  by_cases inside : q < heap.blocks.length
  · rw [List.getElem?_eq_getElem inside]
    by_cases same : q = p
    · subst same; simp [inside]
    · simp [same, Ne.symm same]
  · rw [List.getElem?_eq_none (by omega)]; simp [inside]

@[simp] theorem isLive_overwrite (heap : Heap) (p q : Nat) (value : Value) :
    (heap.overwrite p value).isLive q = heap.isLive q := by
  simp only [overwrite, isLive, List.getElem?_modify]
  cases heap.blocks[q]? <;> simp
  split <;> rfl

@[simp] theorem next_overwrite (heap : Heap) (p : Nat) (value : Value) : (heap.overwrite p value).next = heap.next := by
  simp [overwrite, next]

@[simp] theorem isLive_next (heap : Heap) : heap.isLive heap.next = false := by
  simp [isLive, next]

theorem lt_next_of_valueAt {heap : Heap} {p : Nat} {value : Value} (holds : heap.valueAt p = some value) :
    p < heap.next := by
  unfold valueAt at holds
  unfold next
  by_contra outside
  rw [List.getElem?_eq_none (by omega)] at holds
  cases holds

theorem valueAt_overwrite_of_ne {heap : Heap} {p q : Nat} {held other : Value} (holds : heap.valueAt q = some held)
    (there : heap.valueAt p = some other) (differ : held ≠ other) (value : Value) :
    (heap.overwrite p value).valueAt q = some held := by
  have : q ≠ p := fun same => differ (Option.some.inj (holds.symm.trans (same ▸ there)))
  simp [this, holds]

theorem lt_next_of_isLive {heap : Heap} {p : Nat} (live : heap.isLive p = true) : p < heap.next := by
  unfold isLive at live
  unfold next
  by_contra outside
  rw [List.getElem?_eq_none (by omega)] at live
  cases live

theorem free_of_isLive {heap : Heap} {p : Nat} (live : heap.isLive p = true) :
    heap.free p = .ok (heap.release p) := by
  simp [free, live]

theorem read_of_isLive {heap : Heap} {p : Nat} {value : Value} (live : heap.isLive p = true)
    (holds : heap.valueAt p = some value) : heap.read p = .ok value := by
  simp [read, live, holds]

theorem write_of_isLive {heap : Heap} {p : Nat} (live : heap.isLive p = true) (value : Value) :
    heap.write p value = .ok (heap.overwrite p value) := by
  simp [write, live]

theorem store_of_isLive {heap : Heap} {p : Nat} {value : Value} (live : heap.isLive p = true)
    (holds : heap.valueAt p = some value) (update : Value → Value) :
    heap.store p update = .ok (heap.overwrite p (update value)) := by
  simp [store, read_of_isLive live holds, write_of_isLive live]

@[simp] theorem textAt_release (heap : Heap) (p q : Nat) : (heap.release p).textAt q = heap.textAt q := by
  simp [textAt]

@[simp] theorem valueAt_releaseAll (heap : Heap) (ps : List Nat) (q : Nat) :
    (heap.releaseAll ps).valueAt q = heap.valueAt q := by
  induction ps generalizing heap with
  | nil => rfl
  | cons p rest ih =>
      have step : (heap.releaseAll (p :: rest)) = (heap.release p).releaseAll rest := rfl
      rw [step, ih, valueAt_release]

@[simp] theorem isLive_releaseAll (heap : Heap) (ps : List Nat) (q : Nat) :
    (heap.releaseAll ps).isLive q = (heap.isLive q && decide (q ∉ ps)) := by
  induction ps generalizing heap with
  | nil => simp [releaseAll]
  | cons p rest ih =>
      have step : (heap.releaseAll (p :: rest)) = (heap.release p).releaseAll rest := rfl
      rw [step, ih]
      by_cases same : q = p
      · simp [same]
      · simp [same, bne_iff_ne.mpr same]

@[simp] theorem next_releaseAll (heap : Heap) (ps : List Nat) : (heap.releaseAll ps).next = heap.next := by
  induction ps generalizing heap with
  | nil => rfl
  | cons p rest ih => exact (ih (heap.release p)).trans (next_release heap p)

@[simp] theorem releaseAll_nil (heap : Heap) : heap.releaseAll [] = heap := rfl

theorem releaseAll_append (heap : Heap) (ps qs : List Nat) :
    heap.releaseAll (ps ++ qs) = (heap.releaseAll ps).releaseAll qs := List.foldl_append _ _ _ _

theorem foldlM_free {heap : Heap} {ps : List Nat} (distinct : ps.Nodup) (live : ∀ p ∈ ps, heap.isLive p = true) :
    ps.foldlM free heap = .ok (heap.releaseAll ps) := by
  induction ps generalizing heap with
  | nil => rfl
  | cons p rest ih =>
      obtain ⟨notLater, restNodup⟩ := List.nodup_cons.mp distinct
      rw [List.foldlM_cons, free_of_isLive (live p (List.mem_cons_self p rest))]
      refine ih restNodup fun q member => ?_
      have differ : q ≠ p := fun same => notLater (same ▸ member)
      simp [live q (List.mem_cons_of_mem p member), differ]

end Heap

theorem foldlM_free_singleton (heap : Heap) (p : Nat) : [p].foldlM Heap.free heap = heap.free p := by
  show heap.free p >>= pure = _; cases heap.free p <;> rfl

theorem gFree_eq_foldlM (heap : Heap) (p : Option Nat) : gFree heap p = p.toList.foldlM Heap.free heap := by
  cases p with
  | none => rfl
  | some p => exact (foldlM_free_singleton heap p).symm

theorem gFree_gFree (heap : Heap) (p q : Option Nat) :
    gFree heap p >>= (gFree · q) = (p.toList ++ q.toList).foldlM Heap.free heap := by
  simp only [List.foldlM_append, gFree_eq_foldlM]

/-! ## Frames and the ledger -/

/-- The blocks from `base` on that are allocated are `blocks`, each listed once. -/
structure Accounts (base : Nat) (heap : Heap) (blocks : List Nat) : Prop where
  nodup : blocks.Nodup
  live : ∀ q, base ≤ q ∧ heap.isLive q = true ↔ q ∈ blocks

theorem perm_swap (kept dropped rest leaked added extra : List Nat) :
    (kept ++ added ++ rest ++ (leaked ++ dropped ++ extra)).Perm
      (kept ++ dropped ++ rest ++ leaked ++ (added ++ extra)) :=
  List.perm_iff_count.mpr fun q => by simp only [List.count_append]; omega

/-- `after` leaves the blocks below `heap.next` as they were, and allocates from
`heap.next` on. -/
structure Keeps (heap after : Heap) : Prop where
  value : ∀ q < heap.next, after.valueAt q = heap.valueAt q
  live : ∀ q < heap.next, after.isLive q = heap.isLive q
  grows : heap.next ≤ after.next

/-- A run from `heap` to `after` that keeps the blocks below `heap.next` and
leaves the new blocks `fresh` allocated. -/
structure Extends (heap after : Heap) (fresh : List Nat) : Prop where
  keeps : Keeps heap after
  accounts : Accounts heap.next after fresh

namespace Accounts

variable {base : Nat} {heap : Heap} {blocks : List Nat}

theorem isLive (accounts : Accounts base heap blocks) {q : Nat} (listed : q ∈ blocks) : heap.isLive q = true :=
  ((accounts.live q).mpr listed).2

theorem le (accounts : Accounts base heap blocks) {q : Nat} (listed : q ∈ blocks) : base ≤ q :=
  ((accounts.live q).mpr listed).1

theorem lt_next (accounts : Accounts base heap blocks) {q : Nat} (listed : q ∈ blocks) : q < heap.next :=
  Heap.lt_next_of_isLive (accounts.isLive listed)

theorem perm (accounts : Accounts base heap blocks) {other : List Nat} (same : blocks.Perm other) :
    Accounts base heap other :=
  ⟨same.nodup_iff.mp accounts.nodup, fun q => (accounts.live q).trans same.mem_iff⟩

theorem overwrite (accounts : Accounts base heap blocks) (p : Nat) (value : Value) :
    Accounts base (heap.overwrite p value) blocks :=
  ⟨accounts.nodup, fun q => by rw [Heap.isLive_overwrite]; exact accounts.live q⟩

theorem alloc (accounts : Accounts base heap blocks) (above : base ≤ heap.next) (value : Value) :
    Accounts base (heap.alloc value) (blocks ++ [heap.next]) := by
  refine ⟨List.nodup_append.mpr ⟨accounts.nodup, List.nodup_singleton _, ?_⟩, fun q => ?_⟩
  · intro q listed same
    rw [List.mem_singleton.mp same] at listed
    exact absurd (accounts.lt_next listed) (Nat.lt_irrefl _)
  · rw [Heap.isLive_alloc, List.mem_append, List.mem_singleton, ← accounts.live q]
    by_cases fresh : q = heap.next
    · subst fresh; simp [above]
    · simp [fresh]

theorem release (accounts : Accounts base heap blocks) (p : Nat) :
    Accounts base (heap.release p) (blocks.erase p) := by
  refine ⟨accounts.nodup.erase p, fun q => ?_⟩
  rw [accounts.nodup.mem_erase_iff, Heap.isLive_release, ← accounts.live q]
  simp only [Bool.and_eq_true, bne_iff_ne, ne_eq]
  tauto

theorem releaseAll (accounts : Accounts base heap blocks) (ps : List Nat) :
    Accounts base (heap.releaseAll ps) (blocks.filter fun q => q ∉ ps) := by
  refine ⟨accounts.nodup.filter _, fun q => ?_⟩
  rw [Heap.isLive_releaseAll, List.mem_filter, ← accounts.live q]
  simp only [Bool.and_eq_true, decide_eq_true_eq]
  tauto

theorem extend (accounts : Accounts base heap blocks) (above : base ≤ heap.next) {after : Heap}
    {fresh : List Nat} (run : Extends heap after fresh) : Accounts base after (blocks ++ fresh) := by
  refine ⟨List.nodup_append.mpr ⟨accounts.nodup, run.accounts.nodup, ?_⟩, fun q => ?_⟩
  · intro q old new
    exact absurd (accounts.lt_next old) (Nat.not_lt.mpr (run.accounts.le new))
  · rw [List.mem_append, ← accounts.live q, ← run.accounts.live q]
    by_cases below : q < heap.next
    · rw [run.keeps.live q below]
      exact ⟨Or.inl, fun held => held.elim id fun fresh => absurd fresh.1 (by omega)⟩
    · have dead : heap.isLive q = false := by
        by_contra live
        exact below (Heap.lt_next_of_isLive (by simpa using live))
      rw [dead]
      exact ⟨fun ⟨_, live⟩ => Or.inr ⟨by omega, live⟩,
        fun held => held.elim (fun ⟨_, live⟩ => by cases live) fun ⟨_, live⟩ => ⟨by omega, live⟩⟩

end Accounts

theorem Keeps.valueAt {heap after : Heap} (keeps : Keeps heap after) {q : Nat} {value : Value}
    (holds : heap.valueAt q = some value) : after.valueAt q = some value :=
  (keeps.value q (Heap.lt_next_of_valueAt holds)).trans holds

theorem Keeps.textAt {heap after : Heap} (keeps : Keeps heap after) {q : Nat} (below : q < heap.next) :
    after.textAt q = heap.textAt q := by
  simp only [Heap.textAt, keeps.value q below]

namespace Extends

variable {heap mid after : Heap} {fresh more : List Nat}

theorem isLive (run : Extends heap after fresh) {q : Nat} (listed : q ∈ fresh) : after.isLive q = true :=
  run.accounts.isLive listed

theorem le (run : Extends heap after fresh) {q : Nat} (listed : q ∈ fresh) : heap.next ≤ q :=
  run.accounts.le listed

theorem lt_next (run : Extends heap after fresh) {q : Nat} (listed : q ∈ fresh) : q < after.next :=
  run.accounts.lt_next listed

theorem refl (heap : Heap) : Extends heap heap [] :=
  ⟨⟨fun _ _ => rfl, fun _ _ => rfl, le_refl _⟩,
    ⟨List.nodup_nil, fun q => ⟨fun ⟨above, live⟩ => absurd (Heap.lt_next_of_isLive live) (by omega),
      fun member => by cases member⟩⟩⟩

theorem trans (first : Extends heap mid fresh) (second : Extends mid after more) :
    Extends heap after (fresh ++ more) :=
  ⟨⟨fun q below => (second.keeps.value q (by have := first.keeps.grows; omega)).trans (first.keeps.value q below),
      fun q below => (second.keeps.live q (by have := first.keeps.grows; omega)).trans (first.keeps.live q below),
      first.keeps.grows.trans second.keeps.grows⟩,
    first.accounts.extend first.keeps.grows second⟩

theorem perm (run : Extends heap after fresh) {other : List Nat} (same : fresh.Perm other) :
    Extends heap after other :=
  ⟨run.keeps, run.accounts.perm same⟩

theorem releaseAll (run : Extends heap after (fresh ++ more)) : Extends heap (after.releaseAll fresh) more := by
  have distinct := run.accounts.nodup
  refine ⟨⟨fun q below => by rw [Heap.valueAt_releaseAll]; exact run.keeps.value q below,
      fun q below => ?_, by rw [Heap.next_releaseAll]; exact run.keeps.grows⟩, ?_⟩
  · have notFresh : q ∉ fresh := fun listed => absurd (run.le (List.mem_append_left more listed)) (by omega)
    rw [Heap.isLive_releaseAll, run.keeps.live q below]; simp [notFresh]
  · have := run.accounts.releaseAll fresh
    rwa [List.filter_append, List.filter_eq_nil_iff.mpr (fun q listed => by simp [listed]),
      List.filter_eq_self.mpr (fun q listed => by
        simpa using fun inFresh => List.disjoint_of_nodup_append distinct inFresh listed), List.nil_append] at this

theorem alloc (heap : Heap) (value : Value) : Extends heap (heap.alloc value) [heap.next] := by
  have := (Extends.refl heap).accounts.alloc (le_refl _) value
  refine ⟨⟨fun q below => ?_, fun q below => ?_, by simp⟩, this⟩
  · simp [Nat.ne_of_lt below]
  · simp [Nat.ne_of_lt below]

theorem overwrite (run : Extends heap after fresh) {p : Nat} (allocated : heap.next ≤ p) (value : Value) :
    Extends heap (after.overwrite p value) fresh :=
  ⟨⟨fun q below => by
      rw [Heap.valueAt_overwrite, if_neg (by omega)]; exact run.keeps.value q below,
      fun q below => by rw [Heap.isLive_overwrite]; exact run.keeps.live q below,
      by rw [Heap.next_overwrite]; exact run.keeps.grows⟩,
    run.accounts.overwrite p value⟩

theorem release (run : Extends heap after fresh) {p : Nat} (allocated : heap.next ≤ p) :
    Extends heap (after.release p) (fresh.erase p) :=
  ⟨⟨fun q below => by rw [Heap.valueAt_release]; exact run.keeps.value q below,
      fun q below => by
        rw [Heap.isLive_release, run.keeps.live q below]
        simp [show q ≠ p by omega],
      by rw [Heap.next_release]; exact run.keeps.grows⟩,
    run.accounts.release p⟩

end Extends

/-! ## Arrays -/

def SegmentHolds (heap : Heap) (data : Option Nat) (cells : List Cell) : Prop :=
  match data with
  | none => cells = []
  | some data => heap.valueAt data = some (.cells cells)

/-- Models `g_array_append_val (array, cell)`: the first element allocates the
array's data; later ones grow it in place (`g_realloc` may move it, and the
block stands for it wherever it is). -/
def gArrayAppendVal (heap : Heap) (array : Nat) (cell : Cell) : Access Heap :=
  heap.read array >>= fun header =>
    match header.asArray with
    | (none, _) => (heap.alloc (.cells [cell])).write array (.garray (some heap.next) 1)
    | (some data, len) =>
        heap.store data (fun value => .cells (value.asCells ++ [cell])) >>= fun heap =>
          heap.write array (.garray (some data) (len + 1))

theorem gArrayAppendVal_first {heap : Heap} {array : Nat} (live : heap.isLive array = true)
    (holds : heap.valueAt array = some (.garray none 0)) (cell : Cell) :
    gArrayAppendVal heap array cell =
      .ok ((heap.alloc (.cells [cell])).overwrite array (.garray (some heap.next) 1)) := by
  have live' : (heap.alloc (.cells [cell])).isLive array = true := by
    simp [Nat.ne_of_lt (Heap.lt_next_of_isLive live), live]
  simp [gArrayAppendVal, Heap.read_of_isLive live holds, Value.asArray, Heap.write_of_isLive live']

theorem gArrayAppendVal_grow {heap : Heap} {array data : Nat} {cells : List Cell} (live : heap.isLive array = true)
    (holds : heap.valueAt array = some (.garray (some data) cells.length)) (dataLive : heap.isLive data = true)
    (dataHolds : heap.valueAt data = some (.cells cells)) (cell : Cell) :
    gArrayAppendVal heap array cell =
      .ok ((heap.overwrite data (.cells (cells ++ [cell]))).overwrite array (.garray (some data) (cells.length + 1))) := by
  simp [gArrayAppendVal, Heap.read_of_isLive live holds, Value.asArray, Heap.store_of_isLive dataLive dataHolds,
    Value.asCells, Heap.write_of_isLive (show (heap.overwrite data _).isLive array = true by simpa using live)]

/-! ## Texts -/

def TextsHeld (heap : Heap) (entries : List (Nat × List Char)) : Prop :=
  ∀ entry ∈ entries, heap.valueAt entry.1 = some (.text entry.2)

namespace TextsHeld

variable {heap : Heap} {entries : List (Nat × List Char)}

theorem nil (heap : Heap) : TextsHeld heap [] := fun _ member => by cases member

theorem append {more : List (Nat × List Char)} (held : TextsHeld heap entries) (heldMore : TextsHeld heap more) :
    TextsHeld heap (entries ++ more) := fun entry member =>
  (List.mem_append.mp member).elim (held entry) (heldMore entry)

theorem keeps (held : TextsHeld heap entries) {after : Heap} (keeps : Keeps heap after) :
    TextsHeld after entries := fun entry member => keeps.valueAt (held entry member)

theorem overwrite (held : TextsHeld heap entries) {p : Nat} {record : Value} (there : heap.valueAt p = some record)
    (notText : ∀ chars, record ≠ .text chars) (value : Value) : TextsHeld (heap.overwrite p value) entries :=
  fun entry member => Heap.valueAt_overwrite_of_ne (held entry member) there (fun same => notText _ same.symm) value

theorem release (held : TextsHeld heap entries) (p : Nat) : TextsHeld (heap.release p) entries :=
  fun entry member => by rw [Heap.valueAt_release]; exact held entry member

theorem frame (held : TextsHeld heap entries) {after : Heap} {p : Nat} {record : Value}
    (there : heap.valueAt p = some record) (notText : ∀ chars, record ≠ .text chars)
    (kept : ∀ q, q ≠ p → q < heap.next → after.valueAt q = heap.valueAt q) : TextsHeld after entries := by
  intro entry member
  have holds := held entry member
  have differ : entry.1 ≠ p := fun same => notText entry.2 (Option.some.inj (there.symm.trans (same ▸ holds)))
  rw [kept _ differ (Heap.lt_next_of_valueAt holds), holds]

end TextsHeld

def Copied (heap : Heap) (chars : List Char) (copied : Nat × Heap) : Prop :=
  Extends heap copied.2 [copied.1] ∧ copied.2.valueAt copied.1 = some (.text chars)

theorem Extends.storeCopy {start heap : Heap} {ledger : List Nat} {p : Nat} {record : Value} {chars : List Char}
    {copy : Nat} {copied : Heap} (run : Extends start heap ledger) (listed : p ∈ ledger)
    (holds : heap.valueAt p = some record) (made : Copied heap chars (copy, copied)) (update : Value → Value) :
    ∃ after, copied.store p update = .ok after ∧ Extends start after (ledger ++ [copy]) ∧
      after.valueAt p = some (update record) ∧ after.valueAt copy = some (.text chars) ∧
      ∀ q, q ≠ p → q < heap.next → after.valueAt q = heap.valueAt q := by
  obtain ⟨copyRun, text⟩ := made
  dsimp only at copyRun text
  have below : p < heap.next := run.lt_next listed
  have fresh : heap.next ≤ copy := copyRun.le (List.mem_singleton_self copy)
  have live : copied.isLive p = true := (copyRun.keeps.live p below).trans (run.isLive listed)
  refine ⟨_, Heap.store_of_isLive live (copyRun.keeps.valueAt holds) update,
    (run.trans copyRun).overwrite (run.le listed) _, ?_, ?_, fun q differ qBelow => ?_⟩
  · simp [show p < copied.next by have := copyRun.keeps.grows; omega]
  · rw [Heap.valueAt_overwrite, if_neg (by omega), text]
  · rw [Heap.valueAt_overwrite, if_neg (fun ⟨same, _⟩ => differ same), copyRun.keeps.value q qBelow]

/-! ## A memory run beside its value run -/

def Tracks {α β : Type} (related : α → β → Prop) : Outcome α → Access β → Prop
  | .returns a, .ok b => related a b
  | .nullDeref, .nullDeref => True
  | _, _ => False

namespace Tracks

variable {α β γ δ : Type}

theorem ok {related : α → β → Prop} {a : α} {b : β} (holds : related a b) :
    Tracks related (.returns a) (.ok b) := holds

theorem nullDeref (related : α → β → Prop) : Tracks related .nullDeref (.nullDeref : Access β) := trivial

theorem bind {related : α → β → Prop} {related' : γ → δ → Prop} {outcome : Outcome α} {access : Access β}
    {f : α → Outcome γ} {g : β → Access δ} (first : Tracks related outcome access)
    (then_ : ∀ a b, related a b → Tracks related' (f a) (g b)) :
    Tracks related' (outcome >>= f) (access >>= g) := by
  cases outcome <;> cases access <;> first | exact then_ _ _ first | exact first.elim | trivial

theorem map {related : α → β → Prop} {related' : γ → δ → Prop} {outcome : Outcome α} {access : Access β}
    {f : α → γ} {g : β → δ} (first : Tracks related outcome access)
    (then_ : ∀ a b, related a b → related' (f a) (g b)) :
    Tracks related' (f <$> outcome) (g <$> access) := by
  cases outcome <;> cases access <;> first | exact then_ _ _ first | exact first.elim | trivial

theorem map_bind {related : α → β → Prop} {related' : γ → δ → Prop} {outcome : Outcome α} {access : Access β}
    {f : α → γ} {g : β → Access δ} (first : Tracks related outcome access)
    (then_ : ∀ a b, related a b → Tracks related' (pure (f a)) (g b)) :
    Tracks related' (f <$> outcome) (access >>= g) := by
  cases outcome <;> cases access <;> first | exact then_ _ _ first | exact first.elim | trivial

theorem map_right {related : α → β → Prop} {related' : α → δ → Prop} {outcome : Outcome α} {access : Access β}
    {g : β → δ} (first : Tracks related outcome access) (then_ : ∀ a b, related a b → related' a (g b)) :
    Tracks related' outcome (g <$> access) := by
  cases outcome <;> cases access <;> first | exact then_ _ _ first | exact first.elim | trivial

theorem mono {related related' : α → β → Prop} {outcome : Outcome α} {access : Access β}
    (tracks : Tracks related outcome access) (weaker : ∀ a b, related a b → related' a b) :
    Tracks related' outcome access := by
  cases outcome <;> cases access <;> first | exact weaker _ _ tracks | exact tracks.elim | trivial

theorem foldlM {ε : Type} (related : List ε → α → β → Prop) (f : α → ε → Outcome α) (g : β → ε → Access β)
    (step : ∀ done x a b, related done a b → Tracks (related (done ++ [x])) (f a x) (g b x)) :
    ∀ (xs done : List ε) (a : α) (b : β), related done a b →
      Tracks (related (done ++ xs)) (xs.foldlM f a) (xs.foldlM g b) := by
  intro xs
  induction xs with
  | nil => intro done a b holds; simpa using holds
  | cons x rest ih =>
      intro done a b holds
      rw [List.foldlM_cons, List.foldlM_cons]
      exact bind (step done x a b holds) fun a' b' holds' => by
        simpa using ih (done ++ [x]) a' b' holds'

theorem ok_of_returns {related : α → β → Prop} {outcome : Outcome α} {access : Access β} {a : α}
    (tracks : Tracks related outcome access) (returned : outcome = .returns a) : ∃ b, access = .ok b ∧ related a b := by
  subst returned
  cases access with
  | ok b => exact ⟨b, rfl, tracks⟩
  | _ => exact tracks.elim

end Tracks

end Ds3.ResponseMemory
