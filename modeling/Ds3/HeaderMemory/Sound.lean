import Ds3.HeaderMemory.Model

/-! # Runs that free nothing twice

The invariant `Sound`: every node's value is a header allocated with its two
strings, no two nodes share a header, and the status message is an allocated
text that no header owns.  The inversion lemma `processHeaderLineMem_cases` says
once what a call can do: crash, only grow the memory, or insert a header.  Every
call keeps the invariant (`processHeaderLineMem_sound`); with it the clean-up
frees exactly the blocks the headers own (`gHashTableDestroy_of_sound`), so
whatever lines the transfer delivers nothing is ever freed twice
(`exchangeMemory_no_doubleFree`). -/

set_option autoImplicit false

namespace Ds3.HeaderMemory

open Ds3 Ds3.HeaderParser Memory

/-! ## The invariant -/

namespace Memory

def OwnsHeader (mem : Memory) (p : Nat) : Prop :=
  mem.Holds p (.header (p + 1) (p + 2)) ∧ (∃ key, mem.Holds (p + 1) (.text key)) ∧
    ∃ value, mem.Holds (p + 2) (.text value)

def Owned (p q : Nat) : Prop := q = p ∨ q = p + 1 ∨ q = p + 2

instance (p q : Nat) : Decidable (Owned p q) := inferInstanceAs (Decidable (q = p ∨ q = p + 1 ∨ q = p + 2))

/-- Every node's value is an owned header, and no two nodes share one. -/
structure TableSound (mem : Memory) : Prop where
  owns : ∀ node ∈ mem.nodes, mem.OwnsHeader node.value
  distinct : (mem.nodes.map Node.value).Nodup

/-- The table is sound, and the status message is an allocated text no header owns. -/
structure Sound (mem : Memory) extends TableSound mem : Prop where
  message : ∀ p ∈ mem.statusMessage, (∃ text, mem.Holds p (.text text)) ∧
    ∀ node ∈ mem.nodes, ¬ Owned node.value p

theorem sound_empty : Memory.empty.Sound :=
  ⟨⟨(fun _ member => by cases member), List.nodup_nil⟩, fun _ member => by cases member⟩

theorem owned_disjoint {mem : Memory} {p p' q : Nat} (owns : mem.OwnsHeader p) (owns' : mem.OwnsHeader p')
    (differ : p ≠ p') (mine : Owned p q) : ¬ Owned p' q := by
  obtain ⟨header, ⟨key, keyHolds⟩, ⟨value, valueHolds⟩⟩ := owns
  obtain ⟨header', ⟨key', keyHolds'⟩, ⟨value', valueHolds'⟩⟩ := owns'
  have noHeader : ∀ r text, mem.Holds r (.text text) → r ≠ p ∧ r ≠ p' := by
    intro r text holds
    constructor
    · rintro rfl; have := holds.1.symm.trans header.1; cases this
    · rintro rfl; have := holds.1.symm.trans header'.1; cases this
  have := noHeader _ _ keyHolds
  have := noHeader _ _ valueHolds
  have := noHeader _ _ keyHolds'
  have := noHeader _ _ valueHolds'
  unfold Owned at mine ⊢
  omega

theorem ownsHeader_alloc {mem : Memory} {p : Nat} (owns : mem.OwnsHeader p) (payload : Payload) :
    (mem.alloc payload).OwnsHeader p :=
  ⟨holds_alloc owns.1 payload, owns.2.1.imp fun _ holds => holds_alloc holds payload,
    owns.2.2.imp fun _ holds => holds_alloc holds payload⟩

theorem ownsHeader_release {mem : Memory} {p q : Nat} (owns : mem.OwnsHeader p) (other : ¬ Owned p q) :
    (mem.release q).OwnsHeader p := by
  unfold Owned at other
  exact ⟨holds_release owns.1 (by omega), owns.2.1.imp fun _ holds => holds_release holds (by omega),
    owns.2.2.imp fun _ holds => holds_release holds (by omega)⟩

theorem Sound.alloc {mem : Memory} (sound : mem.Sound) (payload : Payload) : (mem.alloc payload).Sound :=
  ⟨⟨fun node member => ownsHeader_alloc (sound.owns node member) payload, sound.distinct⟩,
    fun p message => ⟨(sound.message p message).1.imp fun _ holds => holds_alloc holds payload,
      (sound.message p message).2⟩⟩

theorem Sound.release {mem : Memory} (sound : mem.Sound) {q : Nat}
    (unowned : ∀ node ∈ mem.nodes, ¬ Owned node.value q) (notMessage : ∀ p ∈ mem.statusMessage, p ≠ q) :
    (mem.release q).Sound :=
  ⟨⟨fun node member => ownsHeader_release (sound.owns node member) (unowned node member), sound.distinct⟩,
    fun p message => ⟨(sound.message p message).1.imp fun _ holds => holds_release holds (notMessage p message),
      (sound.message p message).2⟩⟩

theorem Sound.owned_lt {mem : Memory} (sound : mem.Sound) {node : Node} (member : node ∈ mem.nodes)
    {q : Nat} (owned : Owned node.value q) : q < mem.next := by
  obtain ⟨header, ⟨key, keyHolds⟩, ⟨value, valueHolds⟩⟩ := sound.owns node member
  have := lt_next_of_isLive valueHolds.2
  unfold Owned at owned
  omega

theorem Sound.message_lt {mem : Memory} (sound : mem.Sound) {p : Nat} (message : p ∈ mem.statusMessage) :
    p < mem.next := by
  obtain ⟨⟨text, holds⟩, -⟩ := sound.message p message
  exact lt_next_of_isLive holds.2

theorem Sound.unowned_of_le {mem : Memory} (sound : mem.Sound) {q : Nat} (fresh : mem.next ≤ q) :
    ∀ node ∈ mem.nodes, ¬ Owned node.value q :=
  fun _ member owned => absurd (sound.owned_lt member owned) (by omega)

theorem Sound.not_message_of_le {mem : Memory} (sound : mem.Sound) {q : Nat} (fresh : mem.next ≤ q) :
    ∀ p ∈ mem.statusMessage, p ≠ q :=
  fun _ message same => absurd (sound.message_lt message) (by omega)

theorem Sound.free {mem : Memory} (sound : mem.Sound) {q : Nat} (live : mem.isLive q = true)
    (unowned : ∀ node ∈ mem.nodes, ¬ Owned node.value q) (notMessage : ∀ p ∈ mem.statusMessage, p ≠ q) :
    (mem.free q).Spec Sound := by
  rw [free_of_isLive live]
  exact sound.release unowned notMessage

end Memory

/-! ## What each operation does -/

namespace Memory

@[simp] theorem next_newHeader (mem : Memory) (key value : List Char) :
    (newHeader mem key value).next = mem.next + 3 := by
  simp [newHeader]

@[simp] theorem nodes_newHeader (mem : Memory) (key value : List Char) :
    (newHeader mem key value).nodes = mem.nodes := rfl

@[simp] theorem statusMessage_newHeader (mem : Memory) (key value : List Char) :
    (newHeader mem key value).statusMessage = mem.statusMessage := rfl

theorem Sound.newHeader {mem : Memory} (sound : mem.Sound) (key value : List Char) :
    (HeaderMemory.newHeader mem key value).Sound :=
  ((sound.alloc _).alloc _).alloc _

theorem holds_newHeader_key (mem : Memory) (key value : List Char) :
    (newHeader mem key value).Holds (mem.next + 1) (.text key) := by
  simp [Holds, newHeader]

theorem holds_newHeader_value (mem : Memory) (key value : List Char) :
    (newHeader mem key value).Holds (mem.next + 2) (.text value) := by
  simp [Holds, newHeader]

theorem ownsHeader_newHeader (mem : Memory) (key value : List Char) :
    (newHeader mem key value).OwnsHeader mem.next :=
  ⟨by simp [Holds, newHeader]; omega, ⟨key, holds_newHeader_key mem key value⟩,
    ⟨value, holds_newHeader_value mem key value⟩⟩

theorem isLive_newHeader_of_lt (mem : Memory) (key value : List Char) {q : Nat} (below : q < mem.next) :
    (newHeader mem key value).isLive q = mem.isLive q := by
  simp [newHeader, Nat.ne_of_lt below, Nat.ne_of_lt (Nat.lt_succ_of_lt below),
    Nat.ne_of_lt (Nat.lt_succ_of_lt (Nat.lt_succ_of_lt below))]

theorem chars_of_isLive {mem : Memory} {p : Nat} (live : mem.isLive p = true) :
    ((mem.payloadAt p).getD (.text [])).chars = mem.textAt p := by
  unfold isLive at live
  unfold textAt payloadAt
  cases found : mem.blocks[p]? with
  | none => rw [found] at live; cases live
  | some block => rfl

@[simp] theorem isLive_addNode (mem : Memory) (node : Node) (q : Nat) : (mem.addNode node).isLive q = mem.isLive q := rfl

@[simp] theorem payloadAt_addNode (mem : Memory) (node : Node) (q : Nat) :
    (mem.addNode node).payloadAt q = mem.payloadAt q := rfl

@[simp] theorem isLive_replaceValue (mem : Memory) (old new q : Nat) :
    (mem.replaceValue old new).isLive q = mem.isLive q := rfl

@[simp] theorem payloadAt_replaceValue (mem : Memory) (old new q : Nat) :
    (mem.replaceValue old new).payloadAt q = mem.payloadAt q := rfl

@[simp] theorem nodes_replaceValue (mem : Memory) (old new : Nat) :
    (mem.replaceValue old new).nodes =
      mem.nodes.map fun node => if node.value = old then { node with value := new } else node := rfl

@[simp] theorem next_replaceValue (mem : Memory) (old new : Nat) : (mem.replaceValue old new).next = mem.next := rfl

@[simp] theorem next_addNode (mem : Memory) (node : Node) : (mem.addNode node).next = mem.next := rfl

@[simp] theorem statusMessage_addNode (mem : Memory) (node : Node) :
    (mem.addNode node).statusMessage = mem.statusMessage := rfl

def releaseHeader (mem : Memory) (p : Nat) : Memory := ((mem.release (p + 1)).release (p + 2)).release p

@[simp] theorem isLive_releaseHeader (mem : Memory) (p q : Nat) :
    (mem.releaseHeader p).isLive q = (mem.isLive q && !decide (Owned p q)) := by
  by_cases owned : Owned p q
  · unfold Owned at owned
    rcases owned with rfl | rfl | rfl <;> simp [releaseHeader, Owned]
  · have apart : q ≠ p ∧ q ≠ p + 1 ∧ q ≠ p + 2 := by unfold Owned at owned; omega
    simp [releaseHeader, owned, bne_iff_ne.mpr apart.1, bne_iff_ne.mpr apart.2.1, bne_iff_ne.mpr apart.2.2]

@[simp] theorem payloadAt_releaseHeader (mem : Memory) (p q : Nat) :
    (mem.releaseHeader p).payloadAt q = mem.payloadAt q := by
  simp [releaseHeader]

@[simp] theorem nodes_releaseHeader (mem : Memory) (p : Nat) : (mem.releaseHeader p).nodes = mem.nodes := rfl

@[simp] theorem statusMessage_releaseHeader (mem : Memory) (p : Nat) :
    (mem.releaseHeader p).statusMessage = mem.statusMessage := rfl

theorem ds3FreeResponseHeader_of_owns {mem : Memory} {p : Nat} (owns : mem.OwnsHeader p) :
    ds3FreeResponseHeader mem p = .ok (mem.releaseHeader p) := by
  obtain ⟨header, ⟨key, keyHolds⟩, ⟨value, valueHolds⟩⟩ := owns
  simp [ds3FreeResponseHeader, read_of_holds header, free, keyHolds.2, valueHolds.2, header.2, releaseHeader]

end Memory

def LookupResult (mem : Memory) (hash : Nat) (key : List Char) (nodes : List Node)
    (result : Access (Option Node)) : Prop :=
  (∃ node ∈ nodes, node.hash = hash ∧ mem.isLive node.key = false ∧ result = .useAfterFree node.key) ∨
  (∃ found ∈ nodes, found.hash = hash ∧ mem.isLive found.key = true ∧ mem.textAt found.key = key ∧
    result = .ok (some found)) ∨
  ((∀ node ∈ nodes, node.hash = hash → mem.isLive node.key = true ∧ mem.textAt node.key ≠ key) ∧
    result = .ok none)

theorem LookupResult.cons {mem : Memory} {hash : Nat} {key : List Char} {rest : List Node}
    {result : Access (Option Node)} (later : LookupResult mem hash key rest result) (node : Node)
    (passed : node.hash = hash → mem.isLive node.key = true ∧ mem.textAt node.key ≠ key) :
    LookupResult mem hash key (node :: rest) result := by
  rcases later with ⟨bad, member, stored, dead, run⟩ | ⟨found, member, stored, live, same, run⟩ | ⟨others, run⟩
  · exact .inl ⟨bad, List.mem_cons_of_mem _ member, stored, dead, run⟩
  · exact .inr (.inl ⟨found, List.mem_cons_of_mem _ member, stored, live, same, run⟩)
  · refine .inr (.inr ⟨fun other member stored => ?_, run⟩)
    rcases List.mem_cons.mp member with rfl | later
    · exact passed stored
    · exact others other later stored

theorem lookupNode_result (mem : Memory) (hash : Nat) (key : List Char) :
    ∀ nodes : List Node, LookupResult mem hash key nodes (lookupNode mem hash key nodes)
  | [] => .inr (.inr ⟨(fun _ member => by cases member), rfl⟩)
  | node :: rest => by
      by_cases stored : node.hash = hash
      · by_cases live : mem.isLive node.key = true
        · by_cases same : mem.textAt node.key = key
          · exact .inr (.inl ⟨node, List.mem_cons_self _ _, stored, live, same,
              by simp [lookupNode, stored, Memory.read, live, chars_of_isLive live, same]⟩)
          · have skip : lookupNode mem hash key (node :: rest) = lookupNode mem hash key rest := by
              simp [lookupNode, stored, Memory.read, live, chars_of_isLive live, same]
            rw [skip]
            exact (lookupNode_result mem hash key rest).cons node fun _ => ⟨live, same⟩
        · exact .inl ⟨node, List.mem_cons_self _ _, stored, by simpa using live,
            by simp [lookupNode, stored, Memory.read, live]⟩
      · have skip : lookupNode mem hash key (node :: rest) = lookupNode mem hash key rest := by
          simp [lookupNode, stored]
        rw [skip]
        exact (lookupNode_result mem hash key rest).cons node fun hashed => absurd hashed stored

theorem gHashTableInsert_eq (strHash : List Char → Nat) {mem : Memory} {key value : Nat} {name : List Char}
    (keyHolds : mem.Holds key (.text name)) :
    gHashTableInsert strHash mem key value =
      lookupNode mem (strHash name) name mem.nodes >>= fun
        | none => pure (mem.addNode ⟨strHash name, key, value⟩)
        | some found => ds3FreeResponseHeader (mem.replaceValue found.value value) found.value := by
  unfold gHashTableInsert
  rw [read_of_holds keyHolds]
  rfl

/-! ## The invariant along a run -/

namespace Memory

theorem Sound.addNode {mem : Memory} (sound : mem.Sound) {node : Node} (owns : mem.OwnsHeader node.value)
    (fresh : node.value ∉ mem.nodes.map Node.value) (apart : ∀ p ∈ mem.statusMessage, ¬ Owned node.value p) :
    (mem.addNode node).Sound := by
  refine ⟨⟨fun other member => ?_, ?_⟩, fun p message => ⟨(sound.message p message).1, fun other member => ?_⟩⟩
  · rcases List.mem_append.mp member with old | added
    · exact sound.owns other old
    · rw [List.mem_singleton.mp added]; exact owns
  · show ((mem.nodes ++ [node]).map Node.value).Nodup
    rw [List.map_append, List.nodup_append_comm]
    exact List.nodup_cons.mpr ⟨fresh, sound.distinct⟩
  · rcases List.mem_append.mp member with old | added
    · exact (sound.message p message).2 other old
    · rw [List.mem_singleton.mp added]; exact apart p message

theorem Sound.replaceValue {mem : Memory} (sound : mem.Sound) (old : Nat) {new : Nat}
    (owns : mem.OwnsHeader new) (fresh : new ∉ mem.nodes.map Node.value)
    (apart : ∀ p ∈ mem.statusMessage, ¬ Owned new p) : (mem.replaceValue old new).Sound := by
  have values : (mem.replaceValue old new).nodes.map Node.value =
      (mem.nodes.map Node.value).map fun value => if value = old then new else value := by
    simp only [Memory.replaceValue, List.map_map]
    congr 1
    funext node
    by_cases same : node.value = old <;> simp [same]
  refine ⟨⟨fun node member => ?_, ?_⟩, fun p message => ⟨(sound.message p message).1, fun node member => ?_⟩⟩
  · obtain ⟨original, listed, rfl⟩ := List.mem_map.mp member
    by_cases same : original.value = old
    · simpa [same] using owns
    · simpa [same] using sound.owns original listed
  · rw [values]
    refine sound.distinct.map_on fun x xListed y yListed mapped => ?_
    by_cases xOld : x = old <;> by_cases yOld : y = old <;> simp only [xOld, yOld, if_true, if_false] at mapped
    · rw [xOld, yOld]
    · exact absurd (mapped ▸ yListed) fresh
    · exact absurd (mapped.symm ▸ xListed) fresh
    · exact mapped
  · obtain ⟨original, listed, rfl⟩ := List.mem_map.mp member
    by_cases same : original.value = old
    · simpa [same] using apart p message
    · simpa [same] using (sound.message p message).2 original listed

theorem Sound.releaseHeader {mem : Memory} (sound : mem.Sound) {p : Nat}
    (unowned : ∀ node ∈ mem.nodes, ∀ q, Owned p q → ¬ Owned node.value q)
    (notMessage : ∀ m ∈ mem.statusMessage, ¬ Owned p m) : (mem.releaseHeader p).Sound := by
  have mine : ∀ q, Owned p q → (∀ node ∈ mem.nodes, ¬ Owned node.value q) ∧ ∀ m ∈ mem.statusMessage, m ≠ q :=
    fun q owned => ⟨fun node member => unowned node member q owned,
      fun m message same => notMessage m message (same ▸ owned)⟩
  have key := mine (p + 1) (.inr (.inl rfl))
  have value := mine (p + 2) (.inr (.inr rfl))
  have header := mine p (.inl rfl)
  exact ((sound.release key.1 key.2).release value.1 value.2).release header.1 header.2

theorem Sound.setMessage {mem : Memory} (sound : mem.TableSound) (p : Nat)
    (holds : ∃ text, mem.Holds p (.text text)) (apart : ∀ node ∈ mem.nodes, ¬ Owned node.value p) :
    (mem.setMessage p).Sound :=
  ⟨⟨sound.owns, sound.distinct⟩, fun q message => by
    simp only [statusMessage_setMessage, Option.mem_some_iff] at message
    subst message
    exact ⟨holds, apart⟩⟩

end Memory

theorem gHashTableInsert_sound (strHash : List Char → Nat) {mem : Memory} (sound : mem.Sound)
    (name value : List Char) :
    (gHashTableInsert strHash (newHeader mem name value) (mem.next + 1) mem.next).Spec fun after =>
      after.Sound ∧ after.statusMessage = mem.statusMessage ∧
      (∀ node ∈ after.nodes, ∀ q, Owned node.value q → q < mem.next → ∃ old ∈ mem.nodes, Owned old.value q) ∧
      ∀ q, q < mem.next → mem.isLive q = true → (∀ node ∈ mem.nodes, ¬ Owned node.value q) →
        after.isLive q = true := by
  have sound' := sound.newHeader name value
  have owns := ownsHeader_newHeader mem name value
  have fresh : mem.next ∉ (newHeader mem name value).nodes.map Node.value := fun listed => by
    obtain ⟨node, member, same⟩ := List.mem_map.mp listed
    exact absurd (sound.owned_lt member (.inl same.symm)) (by omega)
  have apart : ∀ p ∈ (newHeader mem name value).statusMessage, ¬ Owned mem.next p := fun p message owned => by
    have := sound.message_lt message
    unfold Owned at owned
    omega
  rw [gHashTableInsert_eq strHash (holds_newHeader_key mem name value)]
  rcases lookupNode_result (newHeader mem name value) (strHash name) name (newHeader mem name value).nodes with
    ⟨_, _, _, _, run⟩ | ⟨found, member, -, -, -, run⟩ | ⟨-, run⟩ <;> rw [run]
  · trivial
  · have foundOwns := sound'.owns found member
    have below : ∀ q, Owned found.value q → q < mem.next := fun q => sound.owned_lt member
    simp only [Access.ok_bind]
    rw [@ds3FreeResponseHeader_of_owns ((newHeader mem name value).replaceValue found.value mem.next) _
      foundOwns]
    refine ⟨(sound'.replaceValue found.value owns fresh apart).releaseHeader ?_ ?_, rfl, ?_, ?_⟩
    · intro node listed q owned
      obtain ⟨original, originalListed, rfl⟩ := List.mem_map.mp listed
      by_cases same : original.value = found.value
      · have := below q owned
        simp only [same, if_true]
        unfold Owned
        omega
      · simp only [same, if_false]
        exact owned_disjoint foundOwns (sound'.owns original originalListed) (Ne.symm same) owned
    · exact fun m message => (sound'.message m message).2 found member
    · intro node listed q owned below'
      obtain ⟨original, originalListed, rfl⟩ := List.mem_map.mp listed
      by_cases same : original.value = found.value
      · simp only [same, if_true] at owned
        unfold Owned at owned
        omega
      · simp only [same, if_false] at owned
        exact ⟨original, originalListed, owned⟩
    · intro q below' live unowned
      simp only [isLive_releaseHeader, isLive_replaceValue, isLive_newHeader_of_lt mem name value below', live]
      simpa using unowned found member
  · refine ⟨sound'.addNode owns fresh apart, rfl, ?_, ?_⟩
    · intro node listed q owned below'
      rcases List.mem_append.mp listed with old | added
      · exact ⟨node, old, owned⟩
      · obtain rfl := List.mem_singleton.mp added
        unfold Owned at owned
        dsimp only at owned
        omega
    · intro q below' live _
      show (newHeader mem name value).isLive q = true
      rw [isLive_newHeader_of_lt mem name value below', live]

/-! ## What one call does -/

namespace Memory

/-- What every branch of the callback but the header branch does to memory: new
blocks from `mem.next` on, some of them freed again, and the status message
possibly set to an allocated text among them; nothing before `mem.next` is
touched, and the table is as it was. -/
structure Grows (mem after : Memory) : Prop where
  nodes : after.nodes = mem.nodes
  next : mem.next ≤ after.next
  payloads : ∀ q < mem.next, after.payloadAt q = mem.payloadAt q
  live : ∀ q < mem.next, after.isLive q = mem.isLive q
  message : after.statusMessage = mem.statusMessage ∨
    ∃ p, mem.next ≤ p ∧ after.statusMessage = some p ∧ ∃ text, after.Holds p (.text text)

theorem Grows.refl (mem : Memory) : mem.Grows mem := ⟨rfl, le_rfl, fun _ _ => rfl, fun _ _ => rfl, .inl rfl⟩

theorem Grows.alloc {mem after : Memory} (grows : mem.Grows after) (payload : Payload) :
    mem.Grows (after.alloc payload) := by
  have := grows.next
  refine ⟨grows.nodes, by simp; omega, fun q below => ?_, fun q below => ?_, ?_⟩
  · simp [show q ≠ after.next by omega, grows.payloads q below]
  · simp [show q ≠ after.next by omega, grows.live q below]
  · rcases grows.message with same | ⟨p, fresh, set, text, holds⟩
    · exact .inl same
    · exact .inr ⟨p, fresh, set, text, holds_alloc holds payload⟩

theorem Grows.release {mem after : Memory} (grows : mem.Grows after) (q : Nat) (fresh : mem.next ≤ q)
    (notMessage : after.statusMessage ≠ mem.statusMessage → after.statusMessage ≠ some q) :
    mem.Grows (after.release q) := by
  refine ⟨grows.nodes, by simpa using grows.next, fun r below => by simp [grows.payloads r below],
    fun r below => by simp [show r ≠ q by omega, grows.live r below], ?_⟩
  by_cases same : after.statusMessage = mem.statusMessage
  · exact .inl same
  · rcases grows.message with kept | ⟨p, pFresh, set, text, holds⟩
    · exact absurd kept same
    · exact .inr ⟨p, pFresh, set, text, holds_release holds fun equal => notMessage same (equal ▸ set)⟩

theorem Grows.setMessage {mem after : Memory} (grows : mem.Grows after) (p : Nat) (fresh : mem.next ≤ p)
    (holds : ∃ text, after.Holds p (.text text)) : mem.Grows (after.setMessage p) :=
  ⟨grows.nodes, grows.next, grows.payloads, grows.live, .inr ⟨p, fresh, rfl, holds⟩⟩

theorem Sound.grows {mem after : Memory} (sound : mem.Sound) (grows : mem.Grows after) : after.Sound := by
  have keep : ∀ {q payload}, mem.Holds q payload → after.Holds q payload := fun {q _} holds =>
    ⟨(grows.payloads q (lt_next_of_isLive holds.2)).trans holds.1,
      (grows.live q (lt_next_of_isLive holds.2)).trans holds.2⟩
  refine ⟨⟨fun node member => ?_, by rw [grows.nodes]; exact sound.distinct⟩, fun p message => ?_⟩
  · rw [grows.nodes] at member
    obtain ⟨header, ⟨key, keyHolds⟩, ⟨value, valueHolds⟩⟩ := sound.owns node member
    exact ⟨keep header, ⟨key, keep keyHolds⟩, ⟨value, keep valueHolds⟩⟩
  · rw [grows.nodes]
    rcases grows.message with same | ⟨p', fresh, set, holds⟩
    · rw [same] at message
      obtain ⟨⟨text, holds⟩, apart⟩ := sound.message p message
      exact ⟨⟨text, keep holds⟩, apart⟩
    · rw [set, Option.mem_some_iff] at message
      subst message
      exact ⟨holds, sound.unowned_of_le fresh⟩

end Memory

def headerLineBlocks (mem : Memory) (buffer : List Char) : Memory :=
  (mem.alloc (.text (headerBuff buffer))).alloc (.strv (gStrsplit (headerBuff buffer) headerSeparator 2))

def statusLineBlocks (mem : Memory) (buffer : List Char) : Memory :=
  (mem.alloc (.text (headerBuff buffer))).alloc (.strv (gStrsplit (headerBuff buffer) [' '] 1000))

theorem processHeaderLineMem_statusTokens (strHash : List Char → Nat) (mem : Memory) {data : ResponseData}
    {buffer : List Char} (long : 2 ≤ buffer.length) (nonempty : headerBuff buffer ≠ [])
    (fresh : data.headerCount = 0) (version : gStrHasPrefix (headerBuff buffer) httpVersion = true) :
    processHeaderLineMem strHash mem data buffer =
      match (gStrsplit (headerBuff buffer) [' '] 1000)[1]? with
      | none => .nullDeref
      | some codeText =>
          if toUInt64 (gAsciiStrtoll codeText) = 0 then
            (statusLineBlocks mem buffer).free (mem.alloc (.text (headerBuff buffer))).next >>= (·.free mem.next)
          else if toUInt64 (gAsciiStrtoll codeText) = 100 then (statusLineBlocks mem buffer).free mem.next
          else
            (((statusLineBlocks mem buffer).alloc
                (.text (gStrjoinv [' '] ((gStrsplit (headerBuff buffer) [' '] 1000).drop 2)))).setMessage
              (statusLineBlocks mem buffer).next).free (mem.alloc (.text (headerBuff buffer))).next >>=
              (·.free mem.next) := by
  unfold processHeaderLineMem
  dsimp only
  rw [if_neg (by omega), if_neg nonempty, if_pos (by omega), if_pos version]
  rfl

theorem processHeaderLineMem_cases (strHash : List Char → Nat) (mem : Memory) (data : ResponseData)
    (buffer : List Char) :
    processHeaderLineMem strHash mem data buffer = .nullDeref ∧ processHeaderLine data buffer = .nullDeref ∨
    (∃ after, processHeaderLineMem strHash mem data buffer = .ok after ∧ mem.Grows after ∧
      ∀ result, processHeaderLine data buffer = .returns result → result.2.headers = data.headers) ∨
    (∃ key value, data.headerCount ≠ 0 ∧ processHeaderLineMem strHash mem data buffer =
        (gHashTableInsert strHash (newHeader (headerLineBlocks mem buffer) key value)
            ((headerLineBlocks mem buffer).next + 1) (headerLineBlocks mem buffer).next >>=
          (·.free (mem.alloc (.text (headerBuff buffer))).next) >>= (·.free mem.next)) ∧
      processHeaderLine data buffer = .returns (buffer.length, { data with
        headers := data.headers.insert key value
        headerCount := (data.headerCount + 1) % 2 ^ 64 })) := by
  have grown := (Grows.refl mem).alloc (.text (headerBuff buffer))
  by_cases short : buffer.length < 2
  · refine .inr (.inl ⟨mem, by simp [processHeaderLineMem, short], Grows.refl mem, fun result run => ?_⟩)
    simp only [processHeaderLine, if_pos short] at run
    cases run; rfl
  have long : 2 ≤ buffer.length := by omega
  by_cases blank : headerBuff buffer = []
  · refine .inr (.inl ⟨_, ?_, grown.release mem.next le_rfl (by simp), fun result run => ?_⟩)
    · simp only [processHeaderLineMem, if_neg short, if_pos blank]
      exact free_of_isLive (by simp)
    · rw [processHeaderLine_blank long blank] at run; cases run; rfl
  by_cases fresh : data.headerCount < 1
  · by_cases version : gStrHasPrefix (headerBuff buffer) httpVersion = true
    · have prefixed : httpVersion <+: headerBuff buffer := List.isPrefixOf_iff_prefix.mp version
      have tokens := @processHeaderLine_statusTokens data buffer long blank (by omega) prefixed
      have grown2 := grown.alloc (.strv (gStrsplit (headerBuff buffer) [' '] 1000))
      have run := @processHeaderLineMem_statusTokens strHash mem data buffer long blank (by omega) version
      cases code : (gStrsplit (headerBuff buffer) [' '] 1000)[1]? with
      | none =>
          rw [code] at tokens run
          exact .inl ⟨run, tokens⟩
      | some codeText =>
          rw [code] at tokens run
          dsimp only at tokens run
          refine .inr (.inl ?_)
          by_cases zero : toUInt64 (gAsciiStrtoll codeText) = 0
          · refine ⟨_, ?_, (grown2.release (mem.alloc (.text (headerBuff buffer))).next (by simp) (by simp)).release
                mem.next le_rfl (by simp),
              fun result run => by rw [tokens, if_pos zero] at run; cases run; rfl⟩
            rw [run, if_pos zero, statusLineBlocks, free_of_isLive (by simp), Access.ok_bind,
              free_of_isLive (by simp)]
          by_cases interim : toUInt64 (gAsciiStrtoll codeText) = 100
          · refine ⟨_, ?_, grown2.release mem.next le_rfl (by simp),
              fun result run => by rw [tokens, if_neg zero, if_pos interim] at run; cases run; rfl⟩
            rw [run, if_neg zero, if_pos interim, statusLineBlocks]
            exact free_of_isLive (by simp)
          have grown4 := (grown2.alloc (.text (gStrjoinv [' '] ((gStrsplit (headerBuff buffer) [' '] 1000).drop 2)))).setMessage
            ((mem.alloc (.text (headerBuff buffer))).alloc (.strv (gStrsplit (headerBuff buffer) [' '] 1000))).next
            (by simp only [next_alloc]; omega)
            ⟨gStrjoinv [' '] ((gStrsplit (headerBuff buffer) [' '] 1000).drop 2), by simp [Holds]⟩
          refine ⟨_, ?_, (grown4.release (mem.alloc (.text (headerBuff buffer))).next (by simp) (by simp)).release
              mem.next le_rfl (by simp; omega),
            fun result run => by rw [tokens, if_neg zero, if_neg interim] at run; cases run; rfl⟩
          rw [run, if_neg zero, if_neg interim, statusLineBlocks, free_of_isLive (by simp), Access.ok_bind,
            free_of_isLive (by simp)]
    · have other : ¬ httpVersion <+: headerBuff buffer := fun prefixed =>
        version (List.isPrefixOf_iff_prefix.mpr prefixed)
      refine .inr (.inl ⟨_, ?_, grown.release mem.next le_rfl (by simp), fun result run => ?_⟩)
      · simp only [processHeaderLineMem, if_neg short, if_neg blank, if_pos fresh, version]
        exact free_of_isLive (by simp)
      · rw [processHeaderLine_notHttp long blank (by omega) other] at run; cases run; rfl
  · cases found : strstr headerSeparator (headerBuff buffer) with
    | none =>
        refine .inl ⟨?_, processHeaderLine_noSeparator long blank (by omega) found⟩
        simp [processHeaderLineMem, short, blank, fresh, gStrsplit_header blank, found]
    | some parts =>
        obtain ⟨key, value⟩ := parts
        refine .inr (.inr ⟨key, value, by omega, ?_, processHeaderLine_header long blank (by omega) found⟩)
        simp [processHeaderLineMem, short, blank, fresh, headerLineBlocks, gStrsplit_header blank, found]

theorem processHeaderLineMem_sound (strHash : List Char → Nat) {mem : Memory} (sound : mem.Sound)
    (data : ResponseData) (buffer : List Char) : (processHeaderLineMem strHash mem data buffer).Spec Sound := by
  rcases processHeaderLineMem_cases strHash mem data buffer with ⟨run, -⟩ | ⟨after, run, grows, -⟩ |
    ⟨key, value, -, run, -⟩ <;> rw [run]
  · trivial
  · exact sound.grows grows
  · have sound2 := (sound.alloc (.text (headerBuff buffer))).alloc
      (.strv (gStrsplit (headerBuff buffer) headerSeparator 2))
    simp only [Access.bind_assoc]
    refine (gHashTableInsert_sound strHash sound2 key value).bind fun after ⟨afterSound, status, owners, frame⟩ => ?_
    have kept : ∀ q, mem.next ≤ q → q < mem.next + 2 → after.isLive q = true ∧
        (∀ node ∈ after.nodes, ¬ Owned node.value q) ∧ ∀ p ∈ after.statusMessage, p ≠ q := by
      intro q above below
      have below' : q < (headerLineBlocks mem buffer).next := by simp only [headerLineBlocks, next_alloc]; omega
      refine ⟨frame q below' (by simp [headerLineBlocks]; omega) (sound.unowned_of_le above),
        fun node member owned => ?_, ?_⟩
      · obtain ⟨old, oldMember, oldOwned⟩ := owners node member q owned below'
        exact sound.unowned_of_le above old oldMember oldOwned
      · rw [status]; exact sound.not_message_of_le above
    have splitKept := kept (mem.alloc (.text (headerBuff buffer))).next (by simp) (by simp)
    have buffKept := kept mem.next le_rfl (by omega)
    rw [free_of_isLive splitKept.1, Access.ok_bind]
    exact (afterSound.release splitKept.2.1 splitKept.2.2).free (by simp [buffKept.1]) buffKept.2.1 buffKept.2.2

theorem processHeaderLinesMem_sound (strHash : List Char → Nat) :
    ∀ (lines : List (List Char)) (mem : Memory) (data : ResponseData), mem.Sound →
      (processHeaderLinesMem strHash mem data lines).Spec Sound
  | [], _, _, sound => sound
  | line :: rest, mem, data, sound => by
      rw [processHeaderLinesMem]
      refine (processHeaderLineMem_sound strHash sound data line).bind fun after afterSound => ?_
      cases processHeaderLine data line with
      | returns result =>
          dsimp only
          split
          · exact processHeaderLinesMem_sound strHash rest after _ afterSound
          · exact afterSound
      | nullDeref => trivial

theorem freeStatusMessage_sound {mem : Memory} (sound : mem.Sound) : (freeStatusMessage mem).Spec TableSound := by
  unfold freeStatusMessage
  split
  · exact sound.toTableSound
  · rename_i message found
    have holds := (sound.message message (by simp [found])).1
    obtain ⟨text, live⟩ := holds
    rw [free_of_isLive live.2]
    exact ⟨fun node member => ownsHeader_release (sound.owns node member)
        ((sound.message message (by simp [found])).2 node member), sound.distinct⟩

theorem ownsHeader_releaseHeader {mem : Memory} {p p' : Nat} (owns : mem.OwnsHeader p')
    (apart : ∀ q, Owned p q → ¬ Owned p' q) : (mem.releaseHeader p).OwnsHeader p' := by
  unfold releaseHeader
  exact ownsHeader_release (ownsHeader_release (ownsHeader_release owns (apart _ (.inr (.inl rfl))))
    (apart _ (.inr (.inr rfl)))) (apart _ (.inl rfl))

theorem foldlM_freeHeaders : ∀ (pending : List Node) (mem : Memory),
    (∀ node ∈ pending, mem.OwnsHeader node.value) → (pending.map Node.value).Nodup →
      ∃ after, pending.foldlM (fun mem node => ds3FreeResponseHeader mem node.value) mem = .ok after ∧
        after.nodes = mem.nodes ∧ after.statusMessage = mem.statusMessage ∧
        (∀ q, after.payloadAt q = mem.payloadAt q) ∧
        ∀ q, after.isLive q = (mem.isLive q && !pending.any fun node => decide (Owned node.value q))
  | [], mem, _, _ => ⟨mem, rfl, rfl, rfl, fun _ => rfl, fun _ => by simp⟩
  | node :: rest, mem, owns, distinct => by
      obtain ⟨notRest, restDistinct⟩ := List.nodup_cons.mp distinct
      have first := owns node (List.mem_cons_self _ _)
      have restOwns : ∀ other ∈ rest, (mem.releaseHeader node.value).OwnsHeader other.value := by
        intro other member
        have differ : node.value ≠ other.value := fun same => notRest (List.mem_map.mpr ⟨other, member, same.symm⟩)
        exact ownsHeader_releaseHeader (owns other (List.mem_cons_of_mem _ member))
          fun q mine => owned_disjoint first (owns other (List.mem_cons_of_mem _ member)) differ mine
      obtain ⟨after, run, nodes, status, payloads, live⟩ :=
        foldlM_freeHeaders rest (mem.releaseHeader node.value) restOwns restDistinct
      refine ⟨after, ?_, nodes, status, fun q => by rw [payloads, payloadAt_releaseHeader], fun q => ?_⟩
      · rw [List.foldlM_cons, ds3FreeResponseHeader_of_owns first, Access.ok_bind, run]
      · rw [live, isLive_releaseHeader, List.any_cons]
        cases mem.isLive q <;> cases decide (Owned node.value q) <;> rfl

theorem gHashTableDestroy_of_sound {mem : Memory} (sound : mem.TableSound) :
    ∃ after, gHashTableDestroy mem = .ok after ∧ after.nodes = [] ∧ after.statusMessage = mem.statusMessage ∧
      (∀ q, after.payloadAt q = mem.payloadAt q) ∧
      ∀ q, after.isLive q = (mem.isLive q && !mem.nodes.any fun node => decide (Owned node.value q)) :=
  foldlM_freeHeaders mem.nodes { mem with nodes := [] } sound.owns sound.distinct

/-- Whatever lines the transfer delivers and whatever the hash function, the
callback and the clean-up of `_net_process_request` never free a block twice. -/
theorem exchangeMemory_no_doubleFree (strHash : List Char → Nat) (lines : List (List Char)) (block : Nat) :
    exchangeMemory strHash lines ≠ .doubleFree block := by
  refine @Access.Spec.ne_doubleFree _ (fun _ => True) _ ?_ block
  refine ((processHeaderLinesMem_sound strHash lines _ _ sound_empty).bind
    fun mem sound => freeStatusMessage_sound sound).bind fun mem table => ?_
  obtain ⟨after, destroyed, -⟩ := gHashTableDestroy_of_sound table
  rw [destroyed]
  trivial

end Ds3.HeaderMemory
