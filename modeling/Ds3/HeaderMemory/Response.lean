import Ds3.HeaderMemory.Table

/-! # The memory of a well-formed response

One spec lemma per kind of line of a well-formed response says what its call
does to memory.  A name carried by three header lines makes the third line's
lookup, or an earlier one, read the key the second line freed
(`exchangeMemory_thirdRepeat_useAfterFree`).  With distinct names, the `Ledger`
of blocks left allocated accounts for every allocated block along the run, and
the exchange completes leaving allocated exactly the split of each interim
`100` line, which that branch never frees
(`exchangeMemory_distinctNames_leaksInterimSplits`). -/

set_option autoImplicit false

namespace Ds3.HeaderMemory

open Ds3 Ds3.HeaderParser Memory

/-! ## A well-formed response, line by line -/

theorem statusLineText_words (code : Nat) (reason : List Char) (text : Unchomped reason) :
    (gStrsplit (headerBuff (statusLineText code reason)) [' '] 1000)[1]? = some (Nat.toDigits 10 code) ∧
      gStrjoinv [' '] ((gStrsplit (headerBuff (statusLineText code reason)) [' '] 1000).drop 2) = reason := by
  obtain ⟨-, allDigits, -⟩ := toDigits_spells code
  rw [headerBuff_statusLineText code reason text,
    gStrsplit_statusLine _ reason fun member => absurd (allDigits _ member) (by decide)]
  simp only [List.getElem?_cons_succ, List.getElem?_cons_zero, List.drop_succ_cons, List.drop_zero, true_and]
  split
  · rename_i empty; rw [empty]; rfl
  · exact gStrjoinv_strsplitFrom (List.cons_ne_nil _ _) 997 reason

theorem processHeaderLineMem_statusLineText (strHash : List Char → Nat) (mem : Memory) (data : ResponseData)
    (fresh : data.headerCount = 0) (code : Nat) (positive : 0 < code) (bound : code < 2 ^ 63)
    (reason : List Char) (text : Unchomped reason) :
    processHeaderLineMem strHash mem data (statusLineText code reason) = .ok
      (if code = 100 then (statusLineBlocks mem (statusLineText code reason)).release mem.next
      else ((((statusLineBlocks mem (statusLineText code reason)).alloc (.text reason)).setMessage
        (statusLineBlocks mem (statusLineText code reason)).next).release
          (mem.alloc (.text (headerBuff (statusLineText code reason)))).next).release mem.next) := by
  obtain ⟨second, message⟩ := statusLineText_words code reason text
  have long : 2 ≤ (statusLineText code reason).length := by simp [statusLineText]; omega
  have nonempty : headerBuff (statusLineText code reason) ≠ [] := by
    simp [headerBuff_statusLineText code reason text, httpVersion]
  have version : gStrHasPrefix (headerBuff (statusLineText code reason)) httpVersion = true := by
    rw [gStrHasPrefix, List.isPrefixOf_iff_prefix, headerBuff_statusLineText code reason text, List.append_assoc]
    exact List.prefix_append _ _
  rw [processHeaderLineMem_statusTokens strHash mem long nonempty fresh version, second]
  dsimp only
  rw [toUInt64_gAsciiStrtoll_toDigits code bound, if_neg (Nat.pos_iff_ne_zero.mp positive), message]
  by_cases interim : code = 100
  · rw [if_pos interim, if_pos interim]
    exact free_of_isLive (by simp [statusLineBlocks])
  · rw [if_neg interim, if_neg interim, statusLineBlocks, free_of_isLive (by simp), Access.ok_bind,
      free_of_isLive (by simp)]

theorem processHeaderLineMem_blankLineText (strHash : List Char → Nat) (mem : Memory) (data : ResponseData) :
    processHeaderLineMem strHash mem data blankLineText = .ok ((mem.alloc (.text [])).release mem.next) := by
  have blank : headerBuff blankLineText = [] := by decide
  simp only [processHeaderLineMem, blank]
  exact free_of_isLive (by simp)

theorem processHeaderLineMem_headerLineText (strHash : List Char → Nat) (mem : Memory) {data : ResponseData}
    (counted : data.headerCount ≠ 0) (header : List Char × List Char) (valid : HeaderText header) :
    processHeaderLineMem strHash mem data (headerLineText header) =
      gHashTableInsert strHash (newHeader (headerLineBlocks mem (headerLineText header)) header.1 header.2)
          ((headerLineBlocks mem (headerLineText header)).next + 1) (headerLineBlocks mem (headerLineText header)).next >>=
        (·.free (mem.alloc (.text (headerBuff (headerLineText header)))).next) >>= (·.free mem.next) := by
  have long : ¬ (headerLineText header).length < 2 := by simp [headerLineText]; omega
  have blank : headerBuff (headerLineText header) ≠ [] := by
    simp [headerBuff_headerLineText header valid, headerSeparator]
  have found : strstr headerSeparator (headerBuff (headerLineText header)) = some (header.1, header.2) := by
    rw [headerBuff_headerLineText header valid]
    exact strstr_append_of_fresh (by decide) header.1 header.2 valid.2.1
  simp [processHeaderLineMem, long, blank, counted, headerLineBlocks, gStrsplit_header blank, found]

theorem processHeaderLinesMem_cons_taken (strHash : List Char → Nat) {mem after : Memory}
    {data next : ResponseData} {line : List Char} (step : processHeaderLineMem strHash mem data line = .ok after)
    (taken : processHeaderLine data line = .returns (line.length, next)) (rest : List (List Char)) :
    processHeaderLinesMem strHash mem data (line :: rest) = processHeaderLinesMem strHash after next rest := by
  simp [processHeaderLinesMem, step, taken]

/-! ## The ledger of allocated blocks -/

namespace Memory

theorem lt_next_of_payloadAt {mem : Memory} {p : Nat} {payload : Payload} (held : mem.payloadAt p = some payload) :
    p < mem.next := by
  unfold payloadAt at held
  unfold next
  by_contra outside
  rw [List.getElem?_eq_none (by omega)] at held
  cases held

theorem isLive_of_next_le {mem : Memory} {p : Nat} (above : mem.next ≤ p) : mem.isLive p = false :=
  Bool.eq_false_iff.mpr fun live => absurd (lt_next_of_isLive live) (by omega)

end Memory

/-- The blocks a run has left allocated for good, each with what it holds, apart
from the blocks the table's headers own and from the status message: every
allocated block is one of the three. -/
structure Ledger (mem : Memory) (leaked : List (Nat × Payload)) : Prop where
  holds : ∀ entry ∈ leaked, mem.payloadAt entry.1 = some entry.2
  apart : ∀ q ∈ leaked.map Prod.fst, (∀ node ∈ mem.nodes, ¬ Owned node.value q) ∧ mem.statusMessage ≠ some q
  live : ∀ q, mem.isLive q = true ↔
    q ∈ leaked.map Prod.fst ∨ (∃ node ∈ mem.nodes, Owned node.value q) ∨ mem.statusMessage = some q

theorem ledger_empty : Ledger Memory.empty [] :=
  ⟨(fun _ member => by cases member), (fun _ member => by cases member),
    fun q => by simp [Memory.isLive, Memory.empty]⟩

theorem Ledger.step {mem after : Memory} {leaked : List (Nat × Payload)} (ledger : Ledger mem leaked)
    (sound : mem.Sound) (added : List (Nat × Payload)) (newNodes : List Node)
    (nodes : after.nodes = mem.nodes ++ newNodes)
    (message : after.statusMessage = mem.statusMessage ∨
      mem.statusMessage = none ∧ ∃ m, mem.next ≤ m ∧ after.statusMessage = some m)
    (payloads : ∀ q < mem.next, after.payloadAt q = mem.payloadAt q)
    (old : ∀ q < mem.next, after.isLive q = mem.isLive q)
    (newOwned : ∀ node ∈ newNodes, ∀ q, Owned node.value q → mem.next ≤ q)
    (addedHolds : ∀ entry ∈ added, mem.next ≤ entry.1 ∧ after.payloadAt entry.1 = some entry.2)
    (addedApart : ∀ q ∈ added.map Prod.fst, (∀ node ∈ newNodes, ¬ Owned node.value q) ∧ after.statusMessage ≠ some q)
    (fresh : ∀ d, after.isLive (mem.next + d) = true ↔ mem.next + d ∈ added.map Prod.fst ∨
      (∃ node ∈ newNodes, Owned node.value (mem.next + d)) ∨ after.statusMessage = some (mem.next + d)) :
    Ledger after (leaked ++ added) := by
  have leakedBelow : ∀ q ∈ leaked.map Prod.fst, q < mem.next := fun q listed => by
    obtain ⟨entry, member, rfl⟩ := List.mem_map.mp listed
    exact lt_next_of_payloadAt (ledger.holds entry member)
  have addedAbove : ∀ q ∈ added.map Prod.fst, mem.next ≤ q := fun q listed => by
    obtain ⟨entry, member, rfl⟩ := List.mem_map.mp listed
    exact (addedHolds entry member).1
  have owners : ∀ q, (∃ node ∈ after.nodes, Owned node.value q) ↔
      (∃ node ∈ mem.nodes, Owned node.value q) ∨ ∃ node ∈ newNodes, Owned node.value q := fun q => by
    rw [nodes]; simp only [List.mem_append, or_and_right, exists_or]
  have oldMessage : ∀ q, mem.statusMessage = some q → q < mem.next := fun q set =>
    sound.message_lt (Option.mem_def.mpr set)
  have messages : ∀ q, q < mem.next → (after.statusMessage = some q ↔ mem.statusMessage = some q) :=
    fun q below => by
      rcases message with same | ⟨none, m, above, set⟩
      · rw [same]
      · rw [set, none]; simp only [Option.some.injEq, reduceCtorEq, iff_false]; omega
  refine ⟨fun entry member => ?_, fun q listed => ?_, fun q => ?_⟩
  · rcases List.mem_append.mp member with old | new
    · rw [payloads _ (lt_next_of_payloadAt (ledger.holds entry old))]; exact ledger.holds entry old
    · exact (addedHolds entry new).2
  · rw [List.map_append, List.mem_append] at listed
    rcases listed with old | new
    · have below := leakedBelow q old
      refine ⟨fun node member owned => ?_, fun set => (ledger.apart q old).2 ((messages q below).mp set)⟩
      rw [nodes] at member
      rcases List.mem_append.mp member with was | added
      · exact (ledger.apart q old).1 node was owned
      · exact absurd (newOwned node added q owned) (by omega)
    · refine ⟨fun node member owned => ?_, (addedApart q new).2⟩
      rw [nodes] at member
      rcases List.mem_append.mp member with was | added
      · exact absurd (sound.owned_lt was owned) (by have := addedAbove q new; omega)
      · exact (addedApart q new).1 node added owned
  · rw [List.map_append, List.mem_append, owners]
    by_cases below : q < mem.next
    · rw [old q below, ledger.live q, messages q below]
      have notAdded : q ∉ added.map Prod.fst := fun listed => absurd (addedAbove q listed) (by omega)
      have notNew : ¬ ∃ node ∈ newNodes, Owned node.value q := fun ⟨node, member, owned⟩ =>
        absurd (newOwned node member q owned) (by omega)
      simp only [notAdded, notNew, or_false]
    · obtain ⟨d, offset⟩ := Nat.exists_eq_add_of_le (Nat.le_of_not_lt below)
      rw [offset, fresh d, ← offset]
      have notLeaked : q ∉ leaked.map Prod.fst := fun listed => below (leakedBelow q listed)
      have notOld : ¬ ∃ node ∈ mem.nodes, Owned node.value q := fun ⟨node, member, owned⟩ =>
        below (sound.owned_lt member owned)
      simp only [notLeaked, notOld, false_or]

theorem Memory.Sound.message_ne_of_le {mem : Memory} (sound : mem.Sound) {q : Nat} (fresh : mem.next ≤ q) :
    mem.statusMessage ≠ some q :=
  fun set => sound.not_message_of_le fresh q (Option.mem_def.mpr set) rfl

theorem Ledger.interim {mem : Memory} {leaked : List (Nat × Payload)} (ledger : Ledger mem leaked)
    (sound : mem.Sound) (buffer : List Char) :
    Ledger ((statusLineBlocks mem buffer).release mem.next)
      (leaked ++ [(mem.next + 1, .strv (gStrsplit (headerBuff buffer) [' '] 1000))]) := by
  have grows : mem.Grows ((statusLineBlocks mem buffer).release mem.next) :=
    (((Grows.refl mem).alloc _).alloc _).release _ le_rfl (by simp)
  refine ledger.step sound _ [] (List.append_nil _).symm (.inl rfl) grows.payloads grows.live
    (fun _ member => by cases member) (fun entry member => ?_) (fun q listed => ?_) (fun d => ?_)
  · rw [List.mem_singleton.mp member]; simp [statusLineBlocks]
  · rw [List.map_singleton, List.mem_singleton] at listed
    subst listed
    exact ⟨(fun _ member => by cases member), by simpa [statusLineBlocks] using sound.message_ne_of_le (by omega)⟩
  · simp only [statusLineBlocks, isLive_release, isLive_alloc, next_alloc,
      isLive_of_next_le (Nat.le_add_right mem.next d), statusMessage_release, statusMessage_alloc,
      sound.message_ne_of_le (Nat.le_add_right mem.next d), List.map_singleton, List.mem_singleton,
      List.not_mem_nil, false_and, exists_false, or_false, Nat.add_left_cancel_iff, bne_iff_ne, Bool.and_eq_true,
      ne_eq, add_right_eq_self, Bool.if_true_left, Bool.if_false_right, Bool.or_eq_true, decide_eq_true_eq]
    omega

theorem Ledger.status {mem : Memory} {leaked : List (Nat × Payload)} (ledger : Ledger mem leaked)
    (sound : mem.Sound) (unset : mem.statusMessage = none) (buffer message : List Char) :
    Ledger (((((statusLineBlocks mem buffer).alloc (.text message)).setMessage
        (statusLineBlocks mem buffer).next).release (mem.alloc (.text (headerBuff buffer))).next).release mem.next)
      (leaked ++ []) := by
  have grows : mem.Grows (((((statusLineBlocks mem buffer).alloc (.text message)).setMessage
      (statusLineBlocks mem buffer).next).release (mem.alloc (.text (headerBuff buffer))).next).release mem.next) :=
    (((((Grows.refl mem).alloc _).alloc _).alloc _).setMessage _ (by simp only [statusLineBlocks, next_alloc]; omega)
      ⟨message, by simp [Holds, statusLineBlocks]⟩).release _ (by simp) (by simp [statusLineBlocks]) |>.release
        _ le_rfl (by simp [statusLineBlocks]; omega)
  refine ledger.step sound [] [] (List.append_nil _).symm
    (.inr ⟨unset, _, by simp only [statusLineBlocks, next_alloc]; omega, rfl⟩) grows.payloads grows.live
    (fun _ member => by cases member) (fun _ member => by cases member) (fun _ member => by cases member)
    (fun d => ?_)
  simp only [statusLineBlocks, isLive_release, isLive_setMessage, isLive_alloc, next_alloc,
    isLive_of_next_le (Nat.le_add_right mem.next d), statusMessage_release, statusMessage_setMessage, List.map_nil,
    List.not_mem_nil, false_and, exists_false, false_or, Nat.add_assoc, Nat.add_left_cancel_iff, Nat.reduceAdd,
    bne_iff_ne, Bool.and_eq_true, ne_eq, add_right_eq_self, Bool.if_true_left, Bool.if_false_right,
    Bool.or_eq_true, decide_eq_true_eq, Option.some.injEq]
  omega

theorem Ledger.header {mem : Memory} {leaked : List (Nat × Payload)} (ledger : Ledger mem leaked)
    (sound : mem.Sound) (buffer name value : List Char) (hash : Nat) :
    Ledger ((((newHeader (headerLineBlocks mem buffer) name value).addNode
        ⟨hash, (headerLineBlocks mem buffer).next + 1, (headerLineBlocks mem buffer).next⟩).release
          (mem.alloc (.text (headerBuff buffer))).next).release mem.next)
      (leaked ++ []) := by
  have grows : mem.Grows (newHeader (headerLineBlocks mem buffer) name value) :=
    ((((((Grows.refl mem).alloc _).alloc _).alloc _).alloc _).alloc _)
  refine ledger.step sound [] [⟨hash, (headerLineBlocks mem buffer).next + 1, (headerLineBlocks mem buffer).next⟩]
    rfl (.inl rfl) (fun q below => ?_) (fun q below => ?_) (fun node member q owned => ?_)
    (fun _ member => by cases member) (fun _ member => by cases member) (fun d => ?_)
  · rw [payloadAt_release, payloadAt_release, payloadAt_addNode, grows.payloads q below]
  · rw [isLive_release, isLive_release, isLive_addNode, grows.live q below,
      bne_iff_ne.mpr (by rw [next_alloc]; omega), bne_iff_ne.mpr (Nat.ne_of_lt below), Bool.and_true, Bool.and_true]
  · rw [List.mem_singleton.mp member] at owned
    simp only [Owned, headerLineBlocks, next_alloc] at owned
    omega
  · simp only [headerLineBlocks, newHeader, isLive_release, isLive_addNode, isLive_alloc, next_alloc,
      isLive_of_next_le (Nat.le_add_right mem.next d), statusMessage_release, statusMessage_addNode,
      statusMessage_alloc, sound.message_ne_of_le (Nat.le_add_right mem.next d), List.map_nil, List.not_mem_nil,
      List.mem_singleton, exists_eq_left, Owned, false_or, or_false, Nat.add_assoc, Nat.add_left_cancel_iff,
      Nat.reduceAdd, bne_iff_ne, Bool.and_eq_true, ne_eq, add_right_eq_self, Bool.if_true_left,
      Bool.if_false_right, Bool.or_eq_true, decide_eq_true_eq]
    omega

theorem Ledger.blank {mem : Memory} {leaked : List (Nat × Payload)} (ledger : Ledger mem leaked)
    (sound : mem.Sound) (payload : Payload) : Ledger ((mem.alloc payload).release mem.next) (leaked ++ []) := by
  have grows : mem.Grows ((mem.alloc payload).release mem.next) :=
    ((Grows.refl mem).alloc payload).release mem.next le_rfl (by simp)
  refine ledger.step sound [] [] (List.append_nil _).symm (.inl rfl) grows.payloads grows.live
    (fun _ member => by cases member) (fun _ member => by cases member) (fun _ member => by cases member)
    (fun d => ?_)
  simp only [isLive_release, isLive_alloc, isLive_of_next_le (Nat.le_add_right mem.next d), statusMessage_release,
    statusMessage_alloc, sound.message_ne_of_le (Nat.le_add_right mem.next d), List.map_nil, List.not_mem_nil,
    false_and, exists_false, or_false, add_right_eq_self, bne_iff_ne, Bool.and_eq_true, ne_eq, Bool.if_true_left,
    Bool.if_false_right, Bool.or_eq_true, decide_eq_true_eq, and_true, iff_false]
  omega

theorem processHeaderLinesMem_interims (strHash : List Char → Nat) (rest : List (List Char)) :
    ∀ (interims : List (List Char)) (mem : Memory) (leaked : List (Nat × Payload)),
      Agrees strHash mem .zero → Ledger mem leaked → (leaked.map Prod.fst).Nodup → mem.nodes = [] →
      mem.statusMessage = none → (∀ interim ∈ interims, Unchomped interim) →
      ∃ after added, Agrees strHash after .zero ∧ Ledger after (leaked ++ added) ∧
        ((leaked ++ added).map Prod.fst).Nodup ∧ after.nodes = [] ∧ after.statusMessage = none ∧
        added.map Prod.snd =
          interims.map (fun interim => .strv (gStrsplit (headerBuff (statusLineText 100 interim)) [' '] 1000)) ∧
        processHeaderLinesMem strHash mem .zero (interims.map (statusLineText 100) ++ rest) =
          processHeaderLinesMem strHash after .zero rest
  | [], mem, leaked, agrees, ledger, distinct, nodes, unset, _ =>
      ⟨mem, [], agrees, by rw [List.append_nil]; exact ledger, by rwa [List.append_nil], nodes, unset, rfl, rfl⟩
  | interim :: interims, mem, leaked, agrees, ledger, distinct, nodes, unset, texts => by
      have text := texts interim (List.mem_cons_self _ _)
      have taken := processHeaderLine_statusLineText .zero rfl 100 (by decide) (by decide) interim text
      have run := processHeaderLineMem_statusLineText strHash mem .zero rfl 100 (by decide) (by decide) interim text
      rw [if_pos rfl] at taken run
      have fresh : mem.next + 1 ∉ leaked.map Prod.fst := fun listed => by
        obtain ⟨entry, member, same⟩ := List.mem_map.mp listed
        have := lt_next_of_payloadAt (ledger.holds entry member)
        omega
      have distinctNext : (leaked.map Prod.fst ++ [mem.next + 1]).Nodup :=
        distinct.append (List.nodup_singleton _) (List.disjoint_singleton.mpr fresh)
      obtain ⟨after, added, agrees', ledger', distinct', nodes', unset', splits, continued⟩ :=
        processHeaderLinesMem_interims strHash rest interims _ _ (agrees.of_processHeaderLineMem _ run taken)
          (ledger.interim agrees.sound _)
          (by rw [List.map_append, List.map_singleton]; exact distinctNext)
          (by simp [statusLineBlocks, nodes]) (by simp [statusLineBlocks, unset])
          fun other member => texts other (List.mem_cons_of_mem _ member)
      refine ⟨after, _ :: added, agrees', by rwa [List.append_assoc] at ledger',
        by rwa [List.append_assoc] at distinct', nodes', unset', by rw [List.map_cons, splits]; rfl, ?_⟩
      rw [List.map_cons, List.cons_append, processHeaderLinesMem_cons_taken strHash run taken, continued]

/-! ## A name repeated three times -/

namespace Memory

theorem free_free_of_spec {post : Memory → Prop} (mem : Memory) (p q : Nat)
    (spec : (mem.free p >>= (·.free q)).Spec post) :
    mem.free p >>= (·.free q) = .ok ((mem.release p).release q) := by
  by_cases first : mem.isLive p = true
  · rw [free, if_pos first, Access.ok_bind] at spec ⊢
    by_cases second : (mem.release p).isLive q = true
    · rw [free, if_pos second]
    · rw [free, if_neg second] at spec; exact spec.elim
  · rw [free, if_neg first] at spec; exact spec.elim

end Memory

def NameStage (name : List Char) (mem : Memory) : Nat → Prop
  | 0 => ∀ node ∈ mem.nodes, mem.textAt node.key ≠ name
  | 1 => ∃ node ∈ mem.nodes, mem.textAt node.key = name ∧ node.key = node.value + 1
  | _ => ∃ node ∈ mem.nodes, mem.textAt node.key = name ∧ mem.isLive node.key = false

theorem NameStage.transfer {name : List Char} {mem after : Memory} {k : Nat} (stage : NameStage name mem k)
    (nodes : after.nodes = mem.nodes)
    (keys : ∀ node ∈ mem.nodes, after.textAt node.key = mem.textAt node.key ∧
      (mem.isLive node.key = false → after.isLive node.key = false)) : NameStage name after k := by
  match k, stage with
  | 0, stage =>
      intro node member
      rw [nodes] at member
      rw [(keys node member).1]
      exact stage node member
  | 1, ⟨node, member, text, fresh⟩ =>
      exact ⟨node, by rw [nodes]; exact member, (keys node member).1.trans text, fresh⟩
  | _ + 2, ⟨node, member, text, dead⟩ =>
      exact ⟨node, by rw [nodes]; exact member, (keys node member).1.trans text, (keys node member).2 dead⟩

theorem NameStage.release {name : List Char} {mem : Memory} {k : Nat} (stage : NameStage name mem k) (q : Nat) :
    NameStage name (mem.release q) k :=
  stage.transfer rfl fun _ _ => ⟨textAt_of_payloadAt (payloadAt_release mem q _), fun dead => by simp [dead]⟩

theorem NameStage.grows {strHash : List Char → Nat} {name : List Char} {mem after : Memory} {k : Nat}
    (stage : NameStage name mem k) (keyed : Keyed strHash mem) (grows : mem.Grows after) :
    NameStage name after k :=
  stage.transfer grows.nodes fun _ member =>
    have below := keyed.key_lt member
    ⟨textAt_of_payloadAt (grows.payloads _ below), fun dead => (grows.live _ below).trans dead⟩

theorem NameStage.addNode {name : List Char} {mem : Memory} {k : Nat} (stage : NameStage name mem k)
    (node : Node) (other : k = 0 → mem.textAt node.key ≠ name) : NameStage name (mem.addNode node) k := by
  match k, stage with
  | 0, stage =>
      intro listed member
      rcases List.mem_append.mp member with old | added
      · exact stage listed old
      · rw [List.mem_singleton.mp added]; exact other rfl
  | 1, ⟨old, member, text, fresh⟩ => exact ⟨old, List.mem_append_left _ member, text, fresh⟩
  | _ + 2, ⟨old, member, text, dead⟩ => exact ⟨old, List.mem_append_left _ member, text, dead⟩

theorem gHashTableInsert_stage (strHash : List Char → Nat) {mem : Memory} (sound : mem.Sound)
    (keyed : Keyed strHash mem) (name key value : List Char) {k : Nat} (stage : NameStage name mem k)
    (atMost : k ≤ 2) :
    (∃ block, gHashTableInsert strHash (newHeader mem key value) (mem.next + 1) mem.next = .useAfterFree block) ∨
    (k + (if key = name then 1 else 0) ≤ 2 ∧ ∃ after,
      gHashTableInsert strHash (newHeader mem key value) (mem.next + 1) mem.next = .ok after ∧
      NameStage name after (k + if key = name then 1 else 0)) := by
  have keyed1 : Keyed strHash (newHeader mem key value) :=
    keyed.transfer rfl (by simp) fun q => payloadAt_newHeader_of_lt mem key value
  have sound1 := sound.newHeader key value
  have stage1 : NameStage name (newHeader mem key value) k := stage.transfer rfl fun _ member =>
    have below := keyed.key_lt member
    ⟨textAt_of_payloadAt (payloadAt_newHeader_of_lt mem key value below),
      fun dead => by rw [isLive_newHeader_of_lt mem key value below, dead]⟩
  have unique : ∀ n ∈ mem.nodes, ∀ m ∈ mem.nodes,
      (newHeader mem key value).textAt n.key = (newHeader mem key value).textAt m.key → n = m := by
    have texts := keyed1.names
    simp only [keyList, List.map_map] at texts
    exact fun n listed m other same => List.inj_on_of_nodup_map texts listed other same
  have hashed : ∀ n ∈ mem.nodes, n.hash = strHash ((newHeader mem key value).textAt n.key) :=
    fun n member => keyed1.hashed _ (List.mem_map_of_mem (fun node => (node.hash, node.key)) member)
  have keyText : (newHeader mem key value).textAt (mem.next + 1) = key := by
    simp [textAt, (holds_newHeader_key mem key value).1]
  rw [gHashTableInsert_eq strHash (holds_newHeader_key mem key value), nodes_newHeader]
  rcases lookupNode_result (newHeader mem key value) (strHash key) key mem.nodes with
    ⟨bad, -, -, -, look⟩ | ⟨found, member, -, live, textEq, look⟩ | ⟨others, look⟩ <;> rw [look]
  · exact .inl ⟨bad.key, rfl⟩
  · refine .inr ?_
    simp only [Access.ok_bind]
    rw [@ds3FreeResponseHeader_of_owns ((newHeader mem key value).replaceValue found.value mem.next) _
      (sound1.owns found member)]
    have replaced : ∀ n ∈ mem.nodes, (if n.value = found.value then { n with value := mem.next } else n) ∈
        (((newHeader mem key value).replaceValue found.value mem.next).releaseHeader found.value).nodes :=
      fun n listed => List.mem_map_of_mem _ listed
    have texts : ∀ q, (((newHeader mem key value).replaceValue found.value mem.next).releaseHeader
        found.value).textAt q = (newHeader mem key value).textAt q := fun q => textAt_of_payloadAt (by simp)
    by_cases same : key = name
    · subst same
      rw [if_pos rfl]
      match k, stage1 with
      | 0, stage1 => exact absurd textEq (stage1 found member)
      | 1, ⟨n, listed, text, fresh⟩ =>
          obtain rfl := unique n listed found member (text.trans textEq.symm)
          refine ⟨le_rfl, _, rfl, show NameStage key _ 2 from ⟨_, replaced n listed, ?_, ?_⟩⟩
          · simp [texts, text]
          · simp [fresh, Owned]
      | _ + 2, ⟨n, listed, text, dead⟩ =>
          obtain rfl := unique n listed found member (text.trans textEq.symm)
          exact absurd live (by simp [dead])
    · rw [if_neg same, Nat.add_zero]
      refine ⟨atMost, _, rfl, ?_⟩
      match k, stage1 with
      | 0, stage1 =>
          intro listed member'
          obtain ⟨n, listed', rfl⟩ := List.mem_map.mp member'
          rw [texts]
          split
          · exact stage1 n listed'
          · exact stage1 n listed'
      | 1, ⟨n, listed, text, fresh⟩ =>
          have differ : n.value ≠ found.value := fun equal =>
            same (textEq.symm.trans ((List.inj_on_of_nodup_map sound1.distinct listed member equal) ▸ text))
          exact ⟨n, by simpa only [if_neg differ] using replaced n listed, by rw [texts, text], fresh⟩
      | _ + 2, ⟨n, listed, text, dead⟩ =>
          refine ⟨_, replaced n listed, ?_, ?_⟩ <;> split
          · rw [texts, text]
          · rw [texts, text]
          · simp [dead]
          · simp [dead]
  · refine .inr ?_
    by_cases same : key = name
    · subst same
      rw [if_pos rfl]
      match k, stage1 with
      | 0, _ =>
          exact ⟨by simp, _, rfl, show NameStage key _ 1 from
            ⟨_, List.mem_append_right _ (List.mem_singleton_self _), keyText, rfl⟩⟩
      | 1, ⟨n, listed, text, _⟩ => exact absurd text (others n listed (by rw [hashed n listed, text])).2
      | _ + 2, ⟨n, listed, text, dead⟩ =>
          exact absurd (others n listed (by rw [hashed n listed, text])).1 (by simp [dead])
    · rw [if_neg same, Nat.add_zero]
      exact ⟨atMost, _, rfl, stage1.addNode _ fun _ => keyText.trans_ne same⟩

theorem nameStage_zero {strHash : List Char → Nat} {mem : Memory} {data : ResponseData}
    (agrees : Agrees strHash mem data) {name : List Char} (unbound : data.headers.lookup name = none) :
    NameStage name mem 0 := fun node member text => by
  have listed : (name, mem.valueText node.value) ∈ mem.bindings := text ▸ List.mem_map_of_mem _ member
  have bound := agrees.bindings name
  rw [unbound, List.lookup_eq_none_iff] at bound
  exact absurd (bound _ listed) (by simp)

theorem processHeaderLineMem_stage (strHash : List Char → Nat) {mem : Memory} {data : ResponseData}
    (agrees : Agrees strHash mem data) (counted : data.headerCount ≠ 0) (header : List Char × List Char)
    (valid : HeaderText header) (name : List Char) {k : Nat} (stage : NameStage name mem k) (atMost : k ≤ 2) :
    (∃ block, processHeaderLineMem strHash mem data (headerLineText header) = .useAfterFree block) ∨
    (k + (if header.1 = name then 1 else 0) ≤ 2 ∧ ∃ after,
      processHeaderLineMem strHash mem data (headerLineText header) = .ok after ∧
      NameStage name after (k + if header.1 = name then 1 else 0)) := by
  have spec := processHeaderLineMem_sound strHash agrees.sound data (headerLineText header)
  rw [processHeaderLineMem_headerLineText strHash mem counted header valid] at spec ⊢
  have grows : mem.Grows (headerLineBlocks mem (headerLineText header)) :=
    ((Grows.refl mem).alloc _).alloc _
  rcases gHashTableInsert_stage strHash (agrees.sound.grows grows) (agrees.keyed.grows grows) name
      header.1 header.2 (stage.grows agrees.keyed grows) atMost with
    ⟨block, run⟩ | ⟨fits, inserted, run, moved⟩ <;> rw [run] at spec ⊢
  · exact .inl ⟨block, rfl⟩
  · rw [Access.ok_bind] at spec ⊢
    exact .inr ⟨fits, _, free_free_of_spec inserted _ _ spec, (moved.release _).release _⟩

theorem processHeaderLinesMem_headerLines_useAfterFree (strHash : List Char → Nat) (name : List Char) :
    ∀ (headers : List (List Char × List Char)) (mem : Memory) (data : ResponseData) (k : Nat),
      Agrees strHash mem data → NameStage name mem k → k ≤ 2 → (∀ header ∈ headers, HeaderText header) →
      data.headerCount ≠ 0 → data.headerCount + headers.length < 2 ^ 64 →
      3 ≤ k + (headers.map Prod.fst).count name →
      ∃ block, processHeaderLinesMem strHash mem data (headers.map headerLineText ++ [blankLineText]) =
        .useAfterFree block
  | [], _, _, _, _, _, atMost, _, _, _, enough => by simp at enough; omega
  | header :: headers, mem, data, k, agrees, stage, atMost, valid, counted, fits, enough => by
      have taken := processHeaderLine_headerLineText data counted header (valid header (List.mem_cons_self _ _))
      rw [List.map_cons, List.cons_append]
      rcases processHeaderLineMem_stage strHash agrees counted header (valid header (List.mem_cons_self _ _))
          name stage atMost with ⟨block, run⟩ | ⟨fits', after, run, moved⟩
      · exact ⟨block, by simp [processHeaderLinesMem, run]⟩
      · rw [processHeaderLinesMem_cons_taken strHash run taken]
        rw [List.length_cons] at fits
        refine processHeaderLinesMem_headerLines_useAfterFree strHash name headers after _ _
          (agrees.of_processHeaderLineMem _ run taken) moved fits'
          (fun other member => valid other (List.mem_cons_of_mem _ member)) ?_ (by
            simp only [ResponseData.addHeader, Nat.mod_eq_of_lt (show data.headerCount + 1 < 2 ^ 64 by omega)]
            omega) ?_
        · simp only [ResponseData.addHeader, Nat.mod_eq_of_lt (show data.headerCount + 1 < 2 ^ 64 by omega)]
          omega
        · rw [List.map_cons, List.count_cons] at enough
          split at enough <;> rename_i named
          · rw [beq_iff_eq.mp named, if_pos rfl]; omega
          · rw [if_neg fun same => named (beq_iff_eq.mpr same)]; omega

/-- A well-formed response that carries one header name three times makes the
callback read freed memory, whatever the hash function: the second line frees
the first header and the key its node keeps, and the third line's lookup meets
that key, unless an earlier lookup already met a freed key. -/
theorem exchangeMemory_thirdRepeat_useAfterFree (strHash : List Char → Nat) (interims : List (List Char))
    (code : Nat) (reason : List Char) (headers : List (List Char × List Char)) (positive : 0 < code)
    (final : code ≠ 100) (bound : code < 2 ^ 63) (interimTexts : ∀ interim ∈ interims, Unchomped interim)
    (text : Unchomped reason) (valid : ∀ header ∈ headers, HeaderText header)
    (fits : headers.length + 1 < 2 ^ 64) (name : List Char) (thrice : 3 ≤ (headers.map Prod.fst).count name) :
    ∃ block, exchangeMemory strHash (responseLines interims code reason headers) = .useAfterFree block := by
  obtain ⟨mem, -, agrees, -, -, -, -, -, prefixRun⟩ := processHeaderLinesMem_interims strHash
    (statusLineText code reason :: (headers.map headerLineText ++ [blankLineText])) interims .empty []
    (agrees_empty strHash) ledger_empty List.nodup_nil rfl rfl interimTexts
  have status := processHeaderLine_statusLineText .zero rfl code positive bound reason text
  have run := processHeaderLineMem_statusLineText strHash mem .zero rfl code positive bound reason text
  rw [if_neg final] at status run
  have statusAgrees := agrees.of_processHeaderLineMem _ run status
  have one : (ResponseData.zero.headerCount + 1) % 2 ^ 64 = 1 := by decide
  obtain ⟨block, failed⟩ := processHeaderLinesMem_headerLines_useAfterFree strHash name headers _ _ 0
    statusAgrees (nameStage_zero statusAgrees rfl) (by omega) valid (by dsimp only; rw [one]; decide)
    (by dsimp only; rw [one]; omega) (by omega)
  refine ⟨block, ?_⟩
  rw [exchangeMemory, responseLines, List.append_assoc, List.cons_append, prefixRun,
    processHeaderLinesMem_cons_taken strHash run status, failed]
  rfl

theorem exchangeMemory_thirdRepeat_useAfterFree_etag :
    (0 < 200 ∧ 200 ≠ 100 ∧ 200 < 2 ^ 63 ∧ (∀ interim ∈ ([] : List (List Char)), Unchomped interim) ∧
      Unchomped "OK".toList ∧
      (∀ header ∈ [("ETag".toList, "a".toList), ("ETag".toList, "b".toList), ("ETag".toList, "c".toList)],
        HeaderText header) ∧
      [("ETag".toList, "a".toList), ("ETag".toList, "b".toList), ("ETag".toList, "c".toList)].length + 1 < 2 ^ 64 ∧
      3 ≤ ([("ETag".toList, "a".toList), ("ETag".toList, "b".toList), ("ETag".toList, "c".toList)].map
        Prod.fst).count "ETag".toList) ∧
    ∃ block, exchangeMemory List.length (responseLines [] 200 "OK".toList
        [("ETag".toList, "a".toList), ("ETag".toList, "b".toList), ("ETag".toList, "c".toList)]) =
      .useAfterFree block :=
  have text : Unchomped "OK".toList := by simp only [Unchomped]; decide
  have valid : ∀ header ∈ [("ETag".toList, "a".toList), ("ETag".toList, "b".toList), ("ETag".toList, "c".toList)],
      HeaderText header := by
    simp only [List.mem_cons, List.mem_singleton, forall_eq_or_imp, forall_eq, List.not_mem_nil, or_false,
      HeaderText, Unchomped]; decide
  ⟨⟨by decide, by decide, by decide, fun _ member => absurd member (List.not_mem_nil _), text, valid, by decide,
      by decide⟩,
    exchangeMemory_thirdRepeat_useAfterFree List.length [] 200 _ _ (by decide) (by decide) (by decide)
      (fun _ member => absurd member (List.not_mem_nil _)) text valid (by decide) "ETag".toList (by decide)⟩

/-! ## Distinct names: what stays allocated -/

theorem gHashTableInsert_of_unbound (strHash : List Char → Nat) {mem : Memory} (keyed : Keyed strHash mem)
    {name : List Char} (unbound : NameStage name mem 0) (keysLive : ∀ node ∈ mem.nodes, mem.isLive node.key = true)
    (value : List Char) :
    gHashTableInsert strHash (newHeader mem name value) (mem.next + 1) mem.next =
      .ok ((newHeader mem name value).addNode ⟨strHash name, mem.next + 1, mem.next⟩) := by
  rw [gHashTableInsert_eq strHash (holds_newHeader_key mem name value), nodes_newHeader]
  rcases lookupNode_result (newHeader mem name value) (strHash name) name mem.nodes with
    ⟨bad, member, -, dead, -⟩ | ⟨found, member, -, -, textEq, -⟩ | ⟨-, look⟩
  · rw [isLive_newHeader_of_lt mem name value (keyed.key_lt member), keysLive bad member] at dead
    cases dead
  · rw [textAt_of_payloadAt (payloadAt_newHeader_of_lt mem name value (keyed.key_lt member))] at textEq
    exact absurd textEq (unbound found member)
  · rw [look]; rfl

theorem Memory.Sound.keys_live {mem : Memory} (sound : mem.Sound)
    (keys : ∀ node ∈ mem.nodes, node.key = node.value + 1) : ∀ node ∈ mem.nodes, mem.isLive node.key = true :=
  fun node member => by
    obtain ⟨-, ⟨_, keyHolds⟩, -⟩ := sound.owns node member
    rw [keys node member]; exact keyHolds.2

theorem processHeaderLineMem_headerLineText_unbound (strHash : List Char → Nat) {mem : Memory}
    {data : ResponseData} (agrees : Agrees strHash mem data) (keys : ∀ node ∈ mem.nodes, node.key = node.value + 1)
    (counted : data.headerCount ≠ 0) (header : List Char × List Char) (valid : HeaderText header)
    (unbound : data.headers.lookup header.1 = none) :
    processHeaderLineMem strHash mem data (headerLineText header) = .ok
      ((((newHeader (headerLineBlocks mem (headerLineText header)) header.1 header.2).addNode
        ⟨strHash header.1, (headerLineBlocks mem (headerLineText header)).next + 1,
          (headerLineBlocks mem (headerLineText header)).next⟩).release
        (mem.alloc (.text (headerBuff (headerLineText header)))).next).release mem.next) := by
  have grows : mem.Grows (headerLineBlocks mem (headerLineText header)) := ((Grows.refl mem).alloc _).alloc _
  have sound := agrees.sound.grows grows
  rw [processHeaderLineMem_headerLineText strHash mem counted header valid,
    gHashTableInsert_of_unbound strHash (agrees.keyed.grows grows)
      ((nameStage_zero agrees unbound).grows agrees.keyed grows)
      (sound.keys_live fun node member => keys node (grows.nodes ▸ member)) header.2,
    Access.ok_bind, free_of_isLive (by simp [headerLineBlocks, newHeader]), Access.ok_bind,
    free_of_isLive (by simp [headerLineBlocks, newHeader])]

theorem processHeaderLinesMem_headerLines_ledger (strHash : List Char → Nat) :
    ∀ (headers : List (List Char × List Char)) (mem : Memory) (data : ResponseData) (leaked : List (Nat × Payload)),
      Agrees strHash mem data → Ledger mem leaked → (∀ node ∈ mem.nodes, node.key = node.value + 1) →
      (∀ header ∈ headers, HeaderText header) → data.headerCount ≠ 0 →
      data.headerCount + headers.length < 2 ^ 64 → (headers.map Prod.fst).Nodup →
      (∀ header ∈ headers, data.headers.lookup header.1 = none) →
      ∃ after, processHeaderLinesMem strHash mem data (headers.map headerLineText ++ [blankLineText]) = .ok after ∧
        after.Sound ∧ Ledger after leaked
  | [], mem, data, leaked, agrees, ledger, _, _, _, _, _, _ => by
      have taken := @processHeaderLine_blank data blankLineText (by decide) (by decide)
      have run := processHeaderLineMem_blankLineText strHash mem data
      refine ⟨_, ?_, (agrees.of_processHeaderLineMem _ run taken).sound,
        List.append_nil leaked ▸ ledger.blank agrees.sound _⟩
      rw [List.map_nil, List.nil_append, processHeaderLinesMem_cons_taken strHash run taken]
      rfl
  | header :: headers, mem, data, leaked, agrees, ledger, keys, valid, counted, fits, distinct, unbound => by
      have validHeader := valid header (List.mem_cons_self _ _)
      have taken := processHeaderLine_headerLineText data counted header validHeader
      have run := processHeaderLineMem_headerLineText_unbound strHash agrees keys counted header validHeader
        (unbound header (List.mem_cons_self _ _))
      rw [List.length_cons] at fits
      obtain ⟨fresh, restDistinct⟩ := List.nodup_cons.mp distinct
      have count : (data.addHeader header).headerCount = data.headerCount + 1 := Nat.mod_eq_of_lt (by omega)
      rw [List.map_cons, List.cons_append, processHeaderLinesMem_cons_taken strHash run taken]
      refine processHeaderLinesMem_headerLines_ledger strHash headers _ _ leaked
        (agrees.of_processHeaderLineMem _ run taken) (List.append_nil leaked ▸ ledger.header agrees.sound _ _ _ _)
        (fun node member => ?_) (fun other member => valid other (List.mem_cons_of_mem _ member))
        (by rw [count]; omega) (by rw [count]; omega) restDistinct (fun other member => ?_)
      · rcases List.mem_append.mp member with old | added
        · exact keys node old
        · rw [List.mem_singleton.mp added]
      · have differ : other.1 ≠ header.1 := fun same => fresh (same ▸ List.mem_map_of_mem _ member)
        simp only [ResponseData.addHeader, HashTable.lookup_insert, if_neg differ]
        exact unbound other (List.mem_cons_of_mem _ member)

theorem Ledger.cleanup {mem : Memory} {leaked : List (Nat × Payload)} (ledger : Ledger mem leaked)
    (sound : mem.Sound) :
    ∃ after, (freeStatusMessage mem >>= gHashTableDestroy) = .ok after ∧
      (∀ q, after.isLive q = true ↔ q ∈ leaked.map Prod.fst) ∧
      ∀ entry ∈ leaked, after.payloadAt entry.1 = some entry.2 := by
  obtain ⟨freed, run, table, nodes, payloads, live⟩ : ∃ freed, freeStatusMessage mem = .ok freed ∧
      freed.TableSound ∧ freed.nodes = mem.nodes ∧ (∀ q, freed.payloadAt q = mem.payloadAt q) ∧
      ∀ q, freed.isLive q = true ↔ mem.isLive q = true ∧ mem.statusMessage ≠ some q := by
    have spec := freeStatusMessage_sound sound
    cases set : mem.statusMessage with
    | none =>
        have run : freeStatusMessage mem = .ok mem := by unfold freeStatusMessage; rw [set]; rfl
        rw [run] at spec
        exact ⟨mem, run, spec, rfl, fun _ => rfl, fun q => by simp⟩
    | some message =>
        obtain ⟨text, holds⟩ := (sound.message message (by rw [set]; rfl)).1
        have run : freeStatusMessage mem = .ok (mem.release message) := by
          unfold freeStatusMessage; rw [set]; exact free_of_isLive holds.2
        rw [run] at spec
        refine ⟨_, run, spec, rfl, fun q => payloadAt_release mem message q, fun q => ?_⟩
        simp only [isLive_release, Bool.and_eq_true, bne_iff_ne, set, ne_eq, Option.some.injEq]
        exact and_congr_right fun _ => not_congr eq_comm
  obtain ⟨after, destroyed, -, -, payloads', live'⟩ := gHashTableDestroy_of_sound table
  refine ⟨after, by rw [run, Access.ok_bind, destroyed], fun q => ?_, fun entry member => ?_⟩
  · have unowned : ((!freed.nodes.any fun node => decide (Owned node.value q)) = true) ↔
        ¬ ∃ node ∈ mem.nodes, Owned node.value q := by
      rw [nodes]; simp
    rw [live', Bool.and_eq_true, live, ledger.live q, unowned]
    constructor
    · rintro ⟨⟨leakedQ | ⟨node, member, owned⟩ | set, unset⟩, free⟩
      · exact leakedQ
      · exact absurd ⟨node, member, owned⟩ free
      · exact absurd set unset
    · intro leakedQ
      obtain ⟨free, unset⟩ := ledger.apart q leakedQ
      exact ⟨⟨.inl leakedQ, unset⟩, fun ⟨node, member, owned⟩ => free node member owned⟩
  · rw [payloads', payloads]; exact ledger.holds entry member

/-- A well-formed response whose header lines have distinct names: the exchange
completes without a fault, and the blocks it leaves allocated are exactly one
per interim `100` line, distinct, each holding the vector `g_strsplit` made of
that line, which the `100` branch never frees. -/
theorem exchangeMemory_distinctNames_leaksInterimSplits (strHash : List Char → Nat) (interims : List (List Char))
    (code : Nat) (reason : List Char) (headers : List (List Char × List Char)) (positive : 0 < code)
    (final : code ≠ 100) (bound : code < 2 ^ 63) (interimTexts : ∀ interim ∈ interims, Unchomped interim)
    (text : Unchomped reason) (valid : ∀ header ∈ headers, HeaderText header)
    (fits : headers.length + 1 < 2 ^ 64) (distinct : (headers.map Prod.fst).Nodup) :
    ∃ (after : Memory) (leaked : List (Nat × Payload)),
      exchangeMemory strHash (responseLines interims code reason headers) = .ok after ∧
      (∀ q, after.isLive q = true ↔ q ∈ leaked.map Prod.fst) ∧
      (∀ entry ∈ leaked, after.payloadAt entry.1 = some entry.2) ∧ (leaked.map Prod.fst).Nodup ∧
      leaked.map Prod.snd =
        interims.map fun interim => .strv (gStrsplit (headerBuff (statusLineText 100 interim)) [' '] 1000) := by
  obtain ⟨mem, leaked, agrees, ledger, leakedDistinct, nodes, unset, splits, prefixRun⟩ :=
    processHeaderLinesMem_interims strHash
      (statusLineText code reason :: (headers.map headerLineText ++ [blankLineText])) interims .empty []
      (agrees_empty strHash) ledger_empty List.nodup_nil rfl rfl interimTexts
  have status := processHeaderLine_statusLineText .zero rfl code positive bound reason text
  have run := processHeaderLineMem_statusLineText strHash mem .zero rfl code positive bound reason text
  rw [if_neg final] at status run
  have one : (ResponseData.zero.headerCount + 1) % 2 ^ 64 = 1 := by decide
  obtain ⟨done, headersRun, sound, ledger'⟩ := processHeaderLinesMem_headerLines_ledger strHash headers _ _ _
    (agrees.of_processHeaderLineMem _ run status) (ledger.status agrees.sound unset _ _)
    (fun node member => by simp [statusLineBlocks, nodes] at member) valid (by dsimp only; rw [one]; decide)
    (by dsimp only; rw [one]; omega) distinct (fun _ _ => rfl)
  obtain ⟨after, cleaned, live, holds⟩ := ledger'.cleanup sound
  refine ⟨after, leaked, ?_, by simpa using live, by simpa using holds, by simpa using leakedDistinct, splits⟩
  rw [exchangeMemory, responseLines, List.append_assoc, List.cons_append, prefixRun,
    processHeaderLinesMem_cons_taken strHash run status, headersRun, Access.ok_bind]
  exact cleaned

theorem exchangeMemory_distinctNames_leaksInterimSplits_continue :
    (0 < 200 ∧ 200 ≠ 100 ∧ 200 < 2 ^ 63 ∧ (∀ interim ∈ ["Continue".toList], Unchomped interim) ∧
      Unchomped "OK".toList ∧
      (∀ header ∈ [("ETag".toList, "a".toList), ("Server".toList, "x".toList)], HeaderText header) ∧
      [("ETag".toList, "a".toList), ("Server".toList, "x".toList)].length + 1 < 2 ^ 64 ∧
      ([("ETag".toList, "a".toList), ("Server".toList, "x".toList)].map Prod.fst).Nodup) ∧
    ∃ (after : Memory) (leaked : List (Nat × Payload)), exchangeMemory List.length (responseLines ["Continue".toList] 200 "OK".toList
        [("ETag".toList, "a".toList), ("Server".toList, "x".toList)]) = .ok after ∧
      (∀ q, after.isLive q = true ↔ q ∈ leaked.map Prod.fst) ∧
      (∀ entry ∈ leaked, after.payloadAt entry.1 = some entry.2) ∧ (leaked.map Prod.fst).Nodup ∧
      leaked.map Prod.snd = ["Continue".toList].map fun interim =>
        .strv (gStrsplit (headerBuff (statusLineText 100 interim)) [' '] 1000) :=
  have interims : ∀ interim ∈ ["Continue".toList], Unchomped interim := by
    simp only [List.mem_singleton, forall_eq, Unchomped]; decide
  have text : Unchomped "OK".toList := by simp only [Unchomped]; decide
  have valid : ∀ header ∈ [("ETag".toList, "a".toList), ("Server".toList, "x".toList)], HeaderText header := by
    simp only [List.mem_cons, List.mem_singleton, forall_eq_or_imp, forall_eq, List.not_mem_nil, or_false,
      HeaderText, Unchomped]; decide
  ⟨⟨by decide, by decide, by decide, interims, text, valid, by decide, by decide⟩,
    exchangeMemory_distinctNames_leaksInterimSplits List.length _ 200 _ _ (by decide) (by decide) (by decide)
      interims text valid (by decide) (by decide)⟩

end Ds3.HeaderMemory
