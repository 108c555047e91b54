import Ds3.HeaderMemory.Sound

/-! # The table read through its pointers

`bindings` reads each node's key and the value of its header as texts.  Under
the keys' invariant `Keyed` (every key allocated before, hashed, and no two
holding one text), an insert that reads no freed memory binds the new name to
the new value and leaves every other name alone (`gHashTableInsert_bindings`).
`Agrees` links the memory to the response data of `processHeaderLines`; every
call keeps it (`Agrees.of_processHeaderLinesMem`).  `bindings` reads a key
whether or not it is still allocated, so the agreement says what the table
holds only while no key has been freed: a name given a second time frees the
key its node keeps. -/

set_option autoImplicit false

namespace Ds3.HeaderMemory

open Ds3 Ds3.HeaderParser Memory

/-! ## The table read through its pointers -/

namespace Memory

def valueText (mem : Memory) (header : Nat) : List Char :=
  match mem.payloadAt header with
  | some (.header _ value) => mem.textAt value
  | _ => []

def bindings (mem : Memory) : List (List Char × List Char) :=
  mem.nodes.map fun node => (mem.textAt node.key, mem.valueText node.value)

def keyList (mem : Memory) : List (Nat × Nat) := mem.nodes.map fun node => (node.hash, node.key)

/-- The invariant of the table's keys under a hash function: every key was
allocated, every node stored its key's hash, and no two keys hold one text. -/
structure Keyed (strHash : List Char → Nat) (mem : Memory) : Prop where
  below : ∀ entry ∈ mem.keyList, entry.2 < mem.next
  hashed : ∀ entry ∈ mem.keyList, entry.1 = strHash (mem.textAt entry.2)
  names : (mem.keyList.map fun entry => mem.textAt entry.2).Nodup

theorem Keyed.key_lt {strHash : List Char → Nat} {mem : Memory} (keyed : Keyed strHash mem) {node : Node}
    (member : node ∈ mem.nodes) : node.key < mem.next :=
  keyed.below _ (List.mem_map_of_mem (fun node => (node.hash, node.key)) member)

theorem keyed_empty (strHash : List Char → Nat) : Keyed strHash Memory.empty :=
  ⟨(fun _ member => by cases member), (fun _ member => by cases member), List.nodup_nil⟩

theorem textAt_of_payloadAt {mem after : Memory} {q : Nat} (same : after.payloadAt q = mem.payloadAt q) :
    after.textAt q = mem.textAt q := by
  simp only [textAt, same]

theorem Keyed.transfer {strHash : List Char → Nat} {mem after : Memory} (keyed : Keyed strHash mem)
    (keys : after.keyList = mem.keyList) (next : mem.next ≤ after.next)
    (payloads : ∀ q < mem.next, after.payloadAt q = mem.payloadAt q) : Keyed strHash after := by
  have texts : ∀ entry ∈ mem.keyList, after.textAt entry.2 = mem.textAt entry.2 := fun entry member =>
    textAt_of_payloadAt (payloads _ (keyed.below entry member))
  refine ⟨fun entry member => ?_, fun entry member => ?_, ?_⟩
  · rw [keys] at member; exact Nat.lt_of_lt_of_le (keyed.below entry member) next
  · rw [keys] at member; rw [texts entry member]; exact keyed.hashed entry member
  · rw [keys, List.map_congr_left texts]; exact keyed.names

theorem keyList_of_nodes {mem after : Memory} (nodes : after.nodes = mem.nodes) : after.keyList = mem.keyList := by
  rw [keyList, keyList, nodes]

theorem keyList_replaceValue (mem : Memory) (old new : Nat) :
    (mem.replaceValue old new).keyList = mem.keyList := by
  simp only [keyList, replaceValue, List.map_map]
  refine List.map_congr_left fun node _ => ?_
  by_cases same : node.value = old <;> simp [same]

theorem keyList_addNode (mem : Memory) (node : Node) :
    (mem.addNode node).keyList = mem.keyList ++ [(node.hash, node.key)] := by
  simp [keyList, addNode]

theorem bindings_addNode (mem : Memory) (node : Node) :
    (mem.addNode node).bindings = mem.bindings ++ [(mem.textAt node.key, mem.valueText node.value)] := by
  simp only [bindings, addNode, List.map_append]
  rfl

theorem Keyed.addNode {strHash : List Char → Nat} {mem : Memory} (keyed : Keyed strHash mem) (node : Node)
    (below : node.key < mem.next) (hashed : node.hash = strHash (mem.textAt node.key))
    (fresh : mem.textAt node.key ∉ mem.keyList.map fun entry => mem.textAt entry.2) :
    Keyed strHash (mem.addNode node) := by
  refine ⟨fun entry member => ?_, fun entry member => ?_, ?_⟩ <;> rw [keyList_addNode] at *
  · rcases List.mem_append.mp member with old | new
    · exact keyed.below entry old
    · rw [List.mem_singleton.mp new]; exact below
  · rcases List.mem_append.mp member with old | new
    · exact keyed.hashed entry old
    · rw [List.mem_singleton.mp new]; exact hashed
  · rw [List.map_append]
    exact List.nodup_append_comm.mp (List.nodup_cons.mpr ⟨fresh, keyed.names⟩)

theorem bindings_transfer {mem after : Memory} (nodes : after.nodes = mem.nodes)
    (payloads : ∀ q, (∃ node ∈ mem.nodes, q = node.key ∨ q = node.value ∨
      ∃ key value, mem.payloadAt node.value = some (.header key value) ∧ q = value) →
      after.payloadAt q = mem.payloadAt q) :
    after.bindings = mem.bindings := by
  unfold bindings
  rw [nodes]
  refine List.map_congr_left fun node member => ?_
  have header := payloads node.value ⟨node, member, .inr (.inl rfl)⟩
  rw [textAt_of_payloadAt (payloads node.key ⟨node, member, .inl rfl⟩)]
  unfold valueText
  rw [header]
  split
  · rename_i key value found
    rw [textAt_of_payloadAt (payloads value ⟨node, member, .inr (.inr ⟨key, value, found, rfl⟩)⟩)]
  · rfl

end Memory

theorem lookup_eq_none_of_not_mem {β : Type} {key : List Char} :
    ∀ {l : List (List Char × β)}, key ∉ l.map Prod.fst → l.lookup key = none
  | [], _ => rfl
  | (other, _) :: rest, absent => by
      have differ : key ≠ other := fun same => absent (same ▸ List.mem_cons_self other _)
      rw [List.lookup_cons, beq_false_of_ne differ]
      exact lookup_eq_none_of_not_mem fun member => absent (List.mem_cons_of_mem _ member)

theorem lookup_append_fresh {β : Type} (l : List (List Char × β)) {name : List Char} (value : β)
    (fresh : name ∉ l.map Prod.fst) (key : List Char) :
    (l ++ [(name, value)]).lookup key = if key = name then some value else l.lookup key := by
  rw [List.lookup_append]
  by_cases same : key = name
  · subst same; simp [lookup_eq_none_of_not_mem fresh, List.lookup_cons]
  · simp [same, List.lookup_cons, beq_false_of_ne same]

theorem lookup_map_replace_ne {β : Type} {name key : List Char} (value : β) (differ : key ≠ name) :
    ∀ l : List (List Char × β),
      (l.map fun entry => if entry.1 = name then (name, value) else entry).lookup key = l.lookup key
  | [] => rfl
  | (other, old) :: rest => by
      rw [List.map_cons]
      by_cases same : other = name
      · subst same
        simp only [if_true, List.lookup_cons, beq_false_of_ne differ]
        exact lookup_map_replace_ne value differ rest
      · simp only [same, if_false, List.lookup_cons]
        split
        · rfl
        · exact lookup_map_replace_ne value differ rest

theorem lookup_map_replace_self {β : Type} {name : List Char} (value : β) :
    ∀ l : List (List Char × β), name ∈ l.map Prod.fst →
      (l.map fun entry => if entry.1 = name then (name, value) else entry).lookup name = some value
  | [], absent => absurd absent (List.not_mem_nil _)
  | (other, old) :: rest, present => by
      rw [List.map_cons]
      by_cases same : other = name
      · subst same; simp [List.lookup_cons]
      · have differ : name ≠ other := Ne.symm same
        simp only [same, if_false, List.lookup_cons, beq_false_of_ne differ]
        exact lookup_map_replace_self value rest ((List.mem_cons.mp present).resolve_left differ)

namespace Memory

theorem payloadAt_newHeader_of_lt (mem : Memory) (key value : List Char) {q : Nat} (below : q < mem.next) :
    (newHeader mem key value).payloadAt q = mem.payloadAt q := by
  simp [newHeader, Nat.ne_of_lt below, Nat.ne_of_lt (Nat.lt_succ_of_lt below),
    Nat.ne_of_lt (Nat.lt_succ_of_lt (Nat.lt_succ_of_lt below))]

theorem read_lt {strHash : List Char → Nat} {mem : Memory} (sound : mem.Sound) (keyed : Keyed strHash mem)
    {q : Nat} (read : ∃ node ∈ mem.nodes, q = node.key ∨ q = node.value ∨
      ∃ key value, mem.payloadAt node.value = some (.header key value) ∧ q = value) : q < mem.next := by
  obtain ⟨node, member, read⟩ := read
  rcases read with rfl | rfl | ⟨key, value, header, rfl⟩
  · exact keyed.key_lt member
  · exact sound.owned_lt member (.inl rfl)
  · obtain ⟨⟨owned, -⟩, -⟩ := sound.owns node member
    rw [owned] at header
    cases header
    exact sound.owned_lt member (.inr (.inr rfl))

theorem Keyed.grows {strHash : List Char → Nat} {mem after : Memory} (keyed : Keyed strHash mem)
    (grows : mem.Grows after) : Keyed strHash after :=
  keyed.transfer (by simp only [keyList, grows.nodes]) grows.next grows.payloads

theorem bindings_grows {strHash : List Char → Nat} {mem after : Memory} (sound : mem.Sound)
    (keyed : Keyed strHash mem) (grows : mem.Grows after) : after.bindings = mem.bindings :=
  bindings_transfer grows.nodes fun _ read => grows.payloads _ (read_lt sound keyed read)

theorem bindings_release (mem : Memory) (q : Nat) : (mem.release q).bindings = mem.bindings :=
  bindings_transfer rfl fun _ _ => payloadAt_release mem q _

theorem keyed_release {strHash : List Char → Nat} {mem : Memory} (keyed : Keyed strHash mem) (q : Nat) :
    Keyed strHash (mem.release q) :=
  keyed.transfer rfl (by simp) fun _ _ => payloadAt_release mem q _

end Memory

theorem gHashTableInsert_bindings (strHash : List Char → Nat) {mem : Memory} (sound : mem.Sound)
    (keyed : Keyed strHash mem) (name value : List Char) {after : Memory}
    (run : gHashTableInsert strHash (newHeader mem name value) (mem.next + 1) mem.next = .ok after) :
    Keyed strHash after ∧
      ∀ key, after.bindings.lookup key = if key = name then some value else mem.bindings.lookup key := by
  have below : ∀ q < mem.next, (newHeader mem name value).payloadAt q = mem.payloadAt q :=
    fun q => payloadAt_newHeader_of_lt mem name value
  have keyed1 : Keyed strHash (newHeader mem name value) := keyed.transfer rfl (by simp) below
  have bindings1 : (newHeader mem name value).bindings = mem.bindings :=
    bindings_transfer rfl fun _ read => below _ (read_lt sound keyed read)
  have sound1 := sound.newHeader name value
  have named : ∀ node ∈ mem.nodes, (newHeader mem name value).textAt node.key = name →
      node.hash = strHash name := fun node member text => by
    rw [← text]; exact keyed1.hashed _ (List.mem_map_of_mem _ member)
  have newValue : ∀ rest : Memory, rest.payloadAt mem.next = (newHeader mem name value).payloadAt mem.next →
      rest.payloadAt (mem.next + 2) = (newHeader mem name value).payloadAt (mem.next + 2) →
      rest.valueText mem.next = value := fun rest header text => by
    rw [valueText, header, (ownsHeader_newHeader mem name value).1.1]
    simp [textAt, text, (holds_newHeader_value mem name value).1]
  rw [gHashTableInsert_eq strHash (holds_newHeader_key mem name value), nodes_newHeader] at run
  rcases lookupNode_result (newHeader mem name value) (strHash name) name mem.nodes with
    ⟨_, _, _, _, look⟩ | ⟨found, member, -, -, textEq, look⟩ | ⟨others, look⟩ <;> rw [look] at run
  · cases run
  · simp only [Access.ok_bind] at run
    rw [@ds3FreeResponseHeader_of_owns ((newHeader mem name value).replaceValue found.value mem.next) _
      (sound1.owns found member)] at run
    cases run
    refine ⟨keyed1.transfer ((keyList_of_nodes (nodes_releaseHeader _ _)).trans (keyList_replaceValue _ _ _))
      (by simp [releaseHeader]) (fun q _ => by simp), fun key => ?_⟩
    have texts := keyed1.names
    simp only [keyList, List.map_map] at texts
    have values := sound1.distinct
    have sameNode : ∀ node ∈ mem.nodes, node.value = found.value ↔ (newHeader mem name value).textAt node.key = name :=
      fun node listed => ⟨fun same => by
          rw [List.inj_on_of_nodup_map values listed member same]; exact textEq,
        fun same => by
          rw [List.inj_on_of_nodup_map texts listed member (same.trans textEq.symm)]⟩
    have rebound : ((newHeader mem name value).replaceValue found.value mem.next |>.releaseHeader found.value).bindings =
        (newHeader mem name value).bindings.map fun entry => if entry.1 = name then (name, value) else entry := by
      have texts : ∀ q, ((newHeader mem name value).replaceValue found.value mem.next |>.releaseHeader found.value).textAt q
          = (newHeader mem name value).textAt q := fun q => textAt_of_payloadAt (by simp)
      have values : ∀ q, ((newHeader mem name value).replaceValue found.value mem.next |>.releaseHeader found.value).valueText q
          = (newHeader mem name value).valueText q := fun q => by
        simp only [valueText, payloadAt_releaseHeader, payloadAt_replaceValue, texts]
      simp only [bindings, nodes_releaseHeader, nodes_replaceValue, List.map_map]
      refine List.map_congr_left fun node listed => ?_
      by_cases same : node.value = found.value
      · simp only [Function.comp, same, if_true, texts, (sameNode node listed).mp same]
        rw [newValue _ (by simp) (by simp)]
      · simp only [Function.comp, same, if_false, texts, values, (sameNode node listed).not.mp same]
    rw [rebound, ← bindings1]
    by_cases same : key = name
    · subst same
      rw [if_pos rfl]
      exact lookup_map_replace_self value _ (List.mem_map.mpr ⟨_, List.mem_map_of_mem _ member, textEq⟩)
    · rw [if_neg same]; exact lookup_map_replace_ne value same _
  · cases run
    have fresh : ∀ node ∈ mem.nodes, (newHeader mem name value).textAt node.key ≠ name :=
      fun node member text => (others node member (named node member text)).2 text
    have keyText : (newHeader mem name value).textAt (mem.next + 1) = name := by
      simp [textAt, (holds_newHeader_key mem name value).1]
    have unbound : name ∉ (newHeader mem name value).bindings.map Prod.fst := fun listed => by
      simp only [bindings, List.map_map, List.mem_map] at listed
      obtain ⟨node, member, text⟩ := listed
      exact fresh node member text
    refine ⟨keyed1.addNode _ (by simp) (by rw [keyText]) ?_, fun key => ?_⟩
    · rw [keyText]
      simp only [keyList, List.map_map, List.mem_map, not_exists, not_and]
      exact fresh
    · rw [bindings_addNode, keyText, newValue _ rfl rfl, lookup_append_fresh _ value unbound, bindings1]

/-! ## The heap-level callback refines the response-data model -/

/-- The memory of the callback's run and the response data of
`processHeaderLines` agree: the memory keeps its invariants, and its table, read
through its pointers, binds every name as the data's table does. -/
structure Agrees (strHash : List Char → Nat) (mem : Memory) (data : ResponseData) : Prop where
  sound : mem.Sound
  keyed : Memory.Keyed strHash mem
  bindings : ∀ key, mem.bindings.lookup key = data.headers.lookup key

theorem agrees_empty (strHash : List Char → Nat) : Agrees strHash .empty .zero :=
  ⟨sound_empty, keyed_empty strHash, fun _ => rfl⟩

theorem Agrees.of_processHeaderLineMem {strHash : List Char → Nat} {mem : Memory} {data : ResponseData}
    (agrees : Agrees strHash mem data) (buffer : List Char) {after : Memory} {result : Nat × ResponseData}
    (run : processHeaderLineMem strHash mem data buffer = .ok after)
    (taken : processHeaderLine data buffer = .returns result) : Agrees strHash after result.2 := by
  have sound : after.Sound := by
    have spec := processHeaderLineMem_sound strHash agrees.sound data buffer
    rwa [run] at spec
  rcases processHeaderLineMem_cases strHash mem data buffer with ⟨run', -⟩ | ⟨_, run', grows, headers⟩ |
    ⟨key, value, -, run', line⟩ <;> rw [run'] at run
  · cases run
  · cases run
    refine ⟨sound, agrees.keyed.grows grows, fun key => ?_⟩
    rw [bindings_grows agrees.sound agrees.keyed grows, headers result taken]
    exact agrees.bindings key
  · rw [line] at taken
    cases taken
    obtain ⟨released, freed, buffFreed⟩ := Access.bind_eq_ok run
    obtain ⟨inserted, insert, splitFreed⟩ := Access.bind_eq_ok freed
    obtain rfl := free_eq_ok buffFreed
    obtain rfl := free_eq_ok splitFreed
    have grows := ((Grows.refl mem).alloc (.text (headerBuff buffer))).alloc
      (.strv (gStrsplit (headerBuff buffer) headerSeparator 2))
    obtain ⟨keyed, bound⟩ := gHashTableInsert_bindings strHash (agrees.sound.grows grows)
      (agrees.keyed.grows grows) key value insert
    refine ⟨sound, keyed_release (keyed_release keyed _) _, fun other => ?_⟩
    rw [bindings_release, bindings_release, bound, bindings_grows agrees.sound agrees.keyed grows,
      HashTable.lookup_insert, agrees.bindings other]

theorem Agrees.of_processHeaderLinesMem {strHash : List Char → Nat} :
    ∀ (lines : List (List Char)) {mem : Memory} {data : ResponseData} {after : Memory},
      Agrees strHash mem data → processHeaderLinesMem strHash mem data lines = .ok after →
      ∃ taken final, processHeaderLines data lines = .returns (taken, final) ∧ Agrees strHash after final
  | [], _, data, _, agrees, run => by cases run; exact ⟨true, data, rfl, agrees⟩
  | line :: rest, _, data, _, agrees, run => by
      rw [processHeaderLinesMem] at run
      obtain ⟨mid, step, continued⟩ := Access.bind_eq_ok run
      cases taken : processHeaderLine data line with
      | nullDeref => rw [taken] at continued; cases continued
      | returns result =>
          obtain ⟨count, next⟩ := result
          have midAgrees := agrees.of_processHeaderLineMem line step taken
          rw [taken] at continued
          dsimp only at continued
          by_cases whole : count = line.length
          · rw [if_pos whole] at continued
            subst whole
            rw [processHeaderLines_taken rest taken]
            exact Agrees.of_processHeaderLinesMem rest midAgrees continued
          · rw [if_neg whole] at continued
            cases continued
            exact ⟨false, next, by simp [processHeaderLines, taken, whole], midAgrees⟩

end Ds3.HeaderMemory
