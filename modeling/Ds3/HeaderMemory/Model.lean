import Ds3.HeaderParser

/-! # The memory of the header callback

Every call of `_process_header_line` allocates: a zeroed buffer for the line,
the vector `g_strsplit` returns, the status message `g_strjoinv` builds, and
for each header line a `ds3_response_header` with `g_strdup` copies of the name
and the value.  The header goes into the `GHashTable` that `_net_process_request`
made with `g_str_hash`, `g_str_equal`, no key destroy function and
`_ds3_free_response_header` as value destroy function, under the header's own
copy of the name.  After the transfer `_net_process_request` frees the status
message and destroys the table.

The model is a heap of blocks, a pointer being a block's index: freeing a block
that is not allocated is a double free, reading one is a use after free.  One
`.strv` block stands for a vector `g_strsplit` returned together with its
strings, which GLib allocates one by one: the vector of `HTTP/1.1 100 Continue`
is four allocations in GLib and one block here, and a count of blocks left
allocated counts such a vector once.  The
table keeps its nodes in the order its lookups probe them.  GLib's order depends
on the hashes and the table's size; every result about the model holds for every
hash function, and no proof uses the order.  The callback's memory runs
alongside `processHeaderLines`, which decides each line's branch.

`g_hash_table_insert` with a name already bound keeps the key its node holds and
hands the old header to `_ds3_free_response_header`, which frees that very key:
the node is left with a freed key, and a later lookup that meets it reads freed
memory. -/

set_option autoImplicit false

namespace Ds3.HeaderMemory

open Ds3 Ds3.HeaderParser

/-! ## Memory -/

/-- How the callback's memory operations end: they complete, read or free a
block that is not allocated, or hand a null pointer to a function that reads
through it. -/
inductive Access (α : Type) where
  | ok (value : α)
  | useAfterFree (block : Nat)
  | doubleFree (block : Nat)
  | nullDeref
deriving DecidableEq

instance : Monad Access where
  pure := .ok
  bind x f := match x with
    | .ok a => f a
    | .useAfterFree block => .useAfterFree block
    | .doubleFree block => .doubleFree block
    | .nullDeref => .nullDeref

/-- What a block holds. -/
inductive Payload where
  /-- A C string. -/
  | text (chars : List Char)
  /-- A vector `g_strsplit` returned and its strings, which GLib allocates apart
  and `g_strfreev` frees together. -/
  | strv (strings : List (List Char))
  /-- A `ds3_response_header`: where its name and its value are. -/
  | header (key value : Nat)
deriving DecidableEq

def Payload.chars : Payload → List Char
  | .text chars => chars
  | _ => []

@[simp] theorem Payload.chars_text (chars : List Char) : (Payload.text chars).chars = chars := rfl

/-- A block, and whether it is still allocated. -/
structure Block where
  payload : Payload
  live : Bool
deriving DecidableEq

/-- A node of the header table: the hash it stored for its key, the key, the value. -/
structure Node where
  hash : Nat
  key : Nat
  value : Nat
deriving DecidableEq

/-- The blocks of one exchange, the nodes of its header table, and the pointer
`response_data.status_message` holds. -/
structure Memory where
  blocks : List Block
  nodes : List Node
  statusMessage : Option Nat
deriving DecidableEq

namespace Memory

def empty : Memory := ⟨[], [], none⟩

def next (mem : Memory) : Nat := mem.blocks.length

def alloc (mem : Memory) (payload : Payload) : Memory :=
  { mem with blocks := mem.blocks ++ [⟨payload, true⟩] }

def payloadAt (mem : Memory) (p : Nat) : Option Payload := mem.blocks[p]?.map Block.payload

def isLive (mem : Memory) (p : Nat) : Bool := (mem.blocks[p]?.map Block.live).getD false

def release (mem : Memory) (p : Nat) : Memory :=
  { mem with blocks := match mem.blocks[p]? with
      | some block => mem.blocks.set p { block with live := false }
      | none => mem.blocks }

def free (mem : Memory) (p : Nat) : Access Memory :=
  if mem.isLive p then .ok (mem.release p) else .doubleFree p

def read (mem : Memory) (p : Nat) : Access Payload :=
  if mem.isLive p then .ok ((mem.payloadAt p).getD (.text [])) else .useAfterFree p

def textAt (mem : Memory) (p : Nat) : List Char := ((mem.payloadAt p).map Payload.chars).getD []

def setMessage (mem : Memory) (message : Nat) : Memory := { mem with statusMessage := some message }

def Holds (mem : Memory) (p : Nat) (payload : Payload) : Prop :=
  mem.payloadAt p = some payload ∧ mem.isLive p = true

end Memory

/-! ## The header table -/

open Memory

def newHeader (mem : Memory) (key value : List Char) : Memory :=
  ((mem.alloc (.header (mem.next + 1) (mem.next + 2))).alloc (.text key)).alloc (.text value)

def Memory.addNode (mem : Memory) (node : Node) : Memory := { mem with nodes := mem.nodes ++ [node] }

def Memory.replaceValue (mem : Memory) (old new : Nat) : Memory :=
  { mem with nodes := mem.nodes.map fun node => if node.value = old then { node with value := new } else node }

/-- Models `_ds3_free_response_header`: the header's name, its value, then the
header. -/
def ds3FreeResponseHeader (mem : Memory) (data : Nat) : Access Memory :=
  mem.read data >>= fun
    | .header key value => mem.free key >>= (·.free value) >>= (·.free data)
    | _ => pure mem

def lookupNode (mem : Memory) (hash : Nat) (key : List Char) : List Node → Access (Option Node)
  | [] => pure none
  | node :: rest =>
      if node.hash = hash then
        mem.read node.key >>= fun stored =>
          if stored.chars = key then pure (some node) else lookupNode mem hash key rest
      else lookupNode mem hash key rest

/-- Models `g_hash_table_insert (headers, key, value)`: `g_str_hash` reads the
key; an unbound name gets a new node, and a bound one keeps its node and the key
it holds, takes the new value, and hands the old one to
`_ds3_free_response_header`.  With no key destroy function the new key stays
allocated. -/
def gHashTableInsert (strHash : List Char → Nat) (mem : Memory) (key value : Nat) : Access Memory :=
  mem.read key >>= fun stored =>
    lookupNode mem (strHash stored.chars) stored.chars mem.nodes >>= fun
      | none => pure (mem.addNode ⟨strHash stored.chars, key, value⟩)
      | some found => ds3FreeResponseHeader (mem.replaceValue found.value value) found.value

/-- Models `g_hash_table_destroy (response_headers)`: every value goes to
`_ds3_free_response_header`, and no key is freed. -/
def gHashTableDestroy (mem : Memory) : Access Memory :=
  mem.nodes.foldlM (fun mem node => ds3FreeResponseHeader mem node.value) { mem with nodes := [] }

def freeStatusMessage (mem : Memory) : Access Memory :=
  match mem.statusMessage with
  | none => pure mem
  | some message => mem.free message

/-! ## The callback -/

def processHeaderLineMem (strHash : List Char → Nat) (mem : Memory) (data : ResponseData)
    (buffer : List Char) : Access Memory :=
  if buffer.length < 2 then pure mem
  else
    let headerBuffBlock := mem.next
    let mem := mem.alloc (.text (headerBuff buffer))
    if headerBuff buffer = [] then mem.free headerBuffBlock
    else if data.headerCount < 1 then
      if gStrHasPrefix (headerBuff buffer) httpVersion then
        let splitResult := gStrsplit (headerBuff buffer) [' '] 1000
        let splitBlock := mem.next
        let mem := mem.alloc (.strv splitResult)
        match splitResult[1]? with
        | none => .nullDeref
        | some codeText =>
            let statusCode := toUInt64 (gAsciiStrtoll codeText)
            if statusCode = 0 then mem.free splitBlock >>= (·.free headerBuffBlock)
            else if statusCode = 100 then mem.free headerBuffBlock
            else
              let message := mem.next
              let mem := mem.alloc (.text (gStrjoinv [' '] (splitResult.drop 2)))
              (mem.setMessage message).free splitBlock >>= (·.free headerBuffBlock)
      else mem.free headerBuffBlock
    else
      let splitResult := gStrsplit (headerBuff buffer) headerSeparator 2
      let splitBlock := mem.next
      let mem := mem.alloc (.strv splitResult)
      match splitResult with
      | key :: value :: _ =>
          let header := mem.next
          gHashTableInsert strHash (newHeader mem key value) (header + 1) header >>=
            (·.free splitBlock) >>= (·.free headerBuffBlock)
      | _ => .nullDeref

def processHeaderLinesMem (strHash : List Char → Nat) :
    Memory → ResponseData → List (List Char) → Access Memory
  | mem, _, [] => pure mem
  | mem, data, line :: rest =>
      processHeaderLineMem strHash mem data line >>= fun after =>
        match processHeaderLine data line with
        | .returns (count, next) =>
            if count = line.length then processHeaderLinesMem strHash after next rest else pure after
        | .nullDeref => .nullDeref

def exchangeMemory (strHash : List Char → Nat) (lines : List (List Char)) : Access Memory :=
  processHeaderLinesMem strHash .empty .zero lines >>= freeStatusMessage >>= gHashTableDestroy

/-! ## What each primitive does -/

namespace Access

variable {α β : Type}

@[simp] theorem pure_eq (a : α) : (pure a : Access α) = .ok a := rfl

@[simp] theorem ok_bind (a : α) (f : α → Access β) : (Access.ok a >>= f) = f a := rfl

@[simp] theorem useAfterFree_bind (block : Nat) (f : α → Access β) :
    (Access.useAfterFree block >>= f) = .useAfterFree block := rfl

@[simp] theorem nullDeref_bind (f : α → Access β) : (Access.nullDeref >>= f) = .nullDeref := rfl

@[simp] theorem bind_assoc {γ : Type} (x : Access α) (f : α → Access β) (g : β → Access γ) :
    (x >>= f) >>= g = x >>= fun a => f a >>= g := by
  cases x <;> rfl

theorem bind_eq_ok {x : Access α} {f : α → Access β} {b : β} (run : (x >>= f) = .ok b) :
    ∃ a, x = .ok a ∧ f a = .ok b := by
  cases x with
  | ok a => exact ⟨a, rfl, run⟩
  | useAfterFree block => cases run
  | doubleFree block => cases run
  | nullDeref => cases run

def Spec (post : α → Prop) : Access α → Prop
  | .ok a => post a
  | .doubleFree _ => False
  | _ => True

theorem Spec.bind {mid : α → Prop} {post : β → Prop} {x : Access α} {f : α → Access β}
    (first : x.Spec mid) (then_ : ∀ a, mid a → (f a).Spec post) : (x >>= f).Spec post := by
  cases x with
  | ok a => exact then_ a first
  | useAfterFree block => trivial
  | doubleFree block => exact first.elim
  | nullDeref => trivial

theorem Spec.ne_doubleFree {post : α → Prop} {x : Access α} (spec : x.Spec post) (block : Nat) :
    x ≠ .doubleFree block := by
  rintro rfl; exact spec

end Access

namespace Memory

theorem getElem?_push {γ : Type} (l : List γ) (x : γ) (p : Nat) :
    (l ++ [x])[p]? = if p = l.length then some x else l[p]? := by
  split
  · subst_vars; exact List.getElem?_concat_length l x
  · rcases Nat.lt_or_gt_of_ne ‹p ≠ l.length› with lt | gt
    · exact List.getElem?_append_left lt
    · rw [List.getElem?_eq_none (by simp; omega), List.getElem?_eq_none (by omega)]

@[simp] theorem payloadAt_alloc (mem : Memory) (payload : Payload) (p : Nat) :
    (mem.alloc payload).payloadAt p = if p = mem.next then some payload else mem.payloadAt p := by
  simp only [alloc, payloadAt, next, getElem?_push]
  split <;> rfl

@[simp] theorem isLive_alloc (mem : Memory) (payload : Payload) (p : Nat) :
    (mem.alloc payload).isLive p = if p = mem.next then true else mem.isLive p := by
  simp only [alloc, isLive, next, getElem?_push]
  split <;> rfl

@[simp] theorem next_alloc (mem : Memory) (payload : Payload) : (mem.alloc payload).next = mem.next + 1 := by
  simp [alloc, next]

@[simp] theorem nodes_alloc (mem : Memory) (payload : Payload) : (mem.alloc payload).nodes = mem.nodes := rfl

@[simp] theorem statusMessage_alloc (mem : Memory) (payload : Payload) :
    (mem.alloc payload).statusMessage = mem.statusMessage := rfl

@[simp] theorem payloadAt_release (mem : Memory) (p q : Nat) : (mem.release p).payloadAt q = mem.payloadAt q := by
  unfold release payloadAt
  split
  · rename_i block found
    rw [List.getElem?_set]
    split
    · subst_vars; rw [if_pos (List.getElem?_eq_some_iff.mp found).1, found]; rfl
    · rfl
  · rfl

@[simp] theorem isLive_release (mem : Memory) (p q : Nat) :
    (mem.release p).isLive q = (mem.isLive q && q != p) := by
  unfold release isLive
  split
  · rename_i block found
    rw [List.getElem?_set]
    split
    · subst_vars; simp [(List.getElem?_eq_some_iff.mp found).1]
    · rename_i differ; simp [Ne.symm differ]
  · rename_i missing
    by_cases same : q = p
    · subst same; simp [missing]
    · simp [same]

@[simp] theorem next_release (mem : Memory) (p : Nat) : (mem.release p).next = mem.next := by
  unfold release next; split <;> simp

@[simp] theorem isLive_setMessage (mem : Memory) (message q : Nat) :
    (mem.setMessage message).isLive q = mem.isLive q := rfl

@[simp] theorem payloadAt_setMessage (mem : Memory) (message q : Nat) :
    (mem.setMessage message).payloadAt q = mem.payloadAt q := rfl

@[simp] theorem next_setMessage (mem : Memory) (message : Nat) : (mem.setMessage message).next = mem.next := rfl

@[simp] theorem nodes_setMessage (mem : Memory) (message : Nat) : (mem.setMessage message).nodes = mem.nodes := rfl

@[simp] theorem statusMessage_setMessage (mem : Memory) (message : Nat) :
    (mem.setMessage message).statusMessage = some message := rfl

@[simp] theorem nodes_release (mem : Memory) (p : Nat) : (mem.release p).nodes = mem.nodes := rfl

@[simp] theorem statusMessage_release (mem : Memory) (p : Nat) :
    (mem.release p).statusMessage = mem.statusMessage := rfl

theorem free_of_isLive {mem : Memory} {p : Nat} (live : mem.isLive p = true) :
    mem.free p = .ok (mem.release p) := by
  simp [free, live]

theorem free_eq_ok {mem after : Memory} {p : Nat} (run : mem.free p = .ok after) : after = mem.release p := by
  unfold free at run
  split at run
  · cases run; rfl
  · cases run

theorem read_of_holds {mem : Memory} {p : Nat} {payload : Payload} (holds : mem.Holds p payload) :
    mem.read p = .ok payload := by
  simp [read, holds.1, holds.2]

theorem lt_next_of_isLive {mem : Memory} {p : Nat} (live : mem.isLive p = true) : p < mem.next := by
  unfold isLive at live
  unfold next
  by_contra outside
  rw [List.getElem?_eq_none (by omega)] at live
  cases live

@[simp] theorem isLive_next (mem : Memory) : mem.isLive mem.next = false := by
  simp [isLive, next]

theorem holds_alloc {mem : Memory} {p : Nat} {payload : Payload} (holds : mem.Holds p payload)
    (added : Payload) : (mem.alloc added).Holds p payload := by
  have below := lt_next_of_isLive holds.2
  simp [Holds, holds.1, holds.2, Nat.ne_of_lt below]

theorem holds_release {mem : Memory} {p q : Nat} {payload : Payload} (holds : mem.Holds p payload)
    (other : p ≠ q) : (mem.release q).Holds p payload := by
  simp [Holds, holds.1, holds.2, other]

end Memory

end Ds3.HeaderMemory
