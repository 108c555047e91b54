import Mathlib.Data.List.Infix

/-! # C strings and the GLib string functions of the client

The client reads header lines, builds URLs and signing strings with a handful
of C and GLib string functions.  Each is modelled on `List Char`, whose
characters stand for the bytes of the C string, as the C library or GLib
computes it:

* `cString`: what `strlen`, `strncpy` and `g_strconcat` see of a buffer, the
  characters before its first NUL;
* `gStrchomp`, `gStrHasPrefix`, `gStrsplit`, `gStrjoinv`: `g_strchomp`,
  `g_str_has_prefix`, `g_strsplit`, `g_strjoinv`;
* `strstr`, written as the split it performs at the first occurrence.

The lemmas that matter downstream are `strstr_eq_some` (the split puts the
needle back between the two parts, and the part before holds no earlier
occurrence) and `gStrjoinv_strsplitFrom` (joining the tokens of a split with
its delimiter gives the string back, whatever the token limit). -/

set_option autoImplicit false

namespace Ds3

/-- Tests `g_ascii_isspace`, the same set as `isspace` in the C locale. -/
def isAsciiSpace (c : Char) : Bool :=
  c == ' ' || c == '\t' || c == '\n' || c == '\x0b' || c == '\x0c' || c == '\r'

/-- Reads the C string a buffer holds: its characters before the first NUL. -/
def cString (buffer : List Char) : List Char := buffer.takeWhile (· != '\x00')

/-- Models `strncpy (dest, src, n)`: the first `n` characters of the C string in
`src`, padded with NULs up to `n`. -/
def strncpy (src : List Char) (n : Nat) : List Char :=
  (cString src).take n ++ List.replicate (n - (cString src).length) '\x00'

/-- Models `g_strchomp`: the string without its trailing whitespace. -/
def gStrchomp (s : List Char) : List Char := (s.reverse.dropWhile isAsciiSpace).reverse

/-- Models `g_str_has_prefix`. -/
def gStrHasPrefix (s pre : List Char) : Bool := pre.isPrefixOf s

/-- Models `strstr (s, needle)` as the split it gives `g_strsplit`: the text
before the first occurrence of `needle` and the text after it. -/
def strstr (needle s : List Char) : Option (List Char × List Char) :=
  if needle.isPrefixOf s then some ([], s.drop needle.length)
  else match s with
    | [] => none
    | c :: rest => (strstr needle rest).map fun found => (c :: found.1, found.2)

/-- Splits at the first `splits` occurrences of `delimiter`; the remainder is
the last token. -/
def strsplitFrom (delimiter : List Char) : Nat → List Char → List (List Char)
  | 0, rest => [rest]
  | splits + 1, rest =>
      match strstr delimiter rest with
      | none => [rest]
      | some (before, after) => before :: strsplitFrom delimiter splits after

/-- Models `g_strsplit (s, delimiter, max_tokens)` for `max_tokens ≥ 1`: at most
`max_tokens - 1` splits, and no tokens at all for the empty string. -/
def gStrsplit (s delimiter : List Char) (maxTokens : Nat) : List (List Char) :=
  if s = [] then [] else strsplitFrom delimiter (maxTokens - 1) s

/-- Models `g_strjoinv (separator, strings)`. -/
def gStrjoinv (separator : List Char) : List (List Char) → List Char
  | [] => []
  | [s] => s
  | s :: rest => s ++ separator ++ gStrjoinv separator rest

@[simp] theorem gStrjoinv_nil (separator : List Char) : gStrjoinv separator [] = [] := rfl

@[simp] theorem gStrjoinv_singleton (separator s : List Char) : gStrjoinv separator [s] = s := rfl

theorem gStrjoinv_cons_cons (separator s t : List Char) (rest : List (List Char)) :
    gStrjoinv separator (s :: t :: rest) = s ++ separator ++ gStrjoinv separator (t :: rest) :=
  rfl

/-! ## `strstr` -/

section Strstr
variable {needle : List Char}

theorem strstr_at_start {s : List Char} (found : needle.isPrefixOf s = true) :
    strstr needle s = some ([], s.drop needle.length) := by
  cases s <;> simp [strstr, found]

theorem strstr_cons_of_missed {c : Char} {rest : List Char}
    (missed : needle.isPrefixOf (c :: rest) = false) :
    strstr needle (c :: rest) = (strstr needle rest).map fun found => (c :: found.1, found.2) := by
  simp [strstr, missed]

theorem strstr_eq_some (nonempty : needle ≠ []) :
    ∀ {s before after : List Char}, strstr needle s = some (before, after) →
      s = before ++ needle ++ after ∧ ¬ needle <:+: before := by
  intro s
  induction s with
  | nil =>
      intro before after found
      cases needle with
      | nil => exact absurd rfl nonempty
      | cons n ns => simp [strstr] at found
  | cons c rest ih =>
      intro before after found
      cases prefixTest : needle.isPrefixOf (c :: rest) with
      | true =>
          rw [strstr_at_start prefixTest] at found
          obtain ⟨rfl, rfl⟩ := Prod.mk.inj (Option.some.inj found)
          obtain ⟨tail, split⟩ := List.isPrefixOf_iff_prefix.mp prefixTest
          refine ⟨?_, fun occurs => nonempty (List.eq_nil_of_infix_nil occurs)⟩
          rw [← split]; simp
      | false =>
          rw [strstr_cons_of_missed prefixTest] at found
          obtain ⟨⟨before', after'⟩, found', parts⟩ := Option.map_eq_some'.mp found
          obtain ⟨rfl, rfl⟩ := Prod.mk.inj parts
          obtain ⟨split, clean⟩ := ih found'
          refine ⟨by simp [split], fun occurs => ?_⟩
          rcases List.infix_cons_iff.mp occurs with atHead | inside
          · have : needle <+: c :: rest := by
              rw [split]; exact atHead.trans (by simp)
            rw [List.isPrefixOf_iff_prefix.mpr this] at prefixTest
            cases prefixTest
          · exact clean inside

theorem strstr_eq_none_of_absent (nonempty : needle ≠ []) {s : List Char}
    (absent : ¬ needle <:+: s) : strstr needle s = none := by
  cases found : strstr needle s with
  | none => rfl
  | some parts =>
      obtain ⟨split, -⟩ := strstr_eq_some nonempty found
      exact absurd ⟨parts.1, parts.2, split.symm⟩ absent

theorem strstr_append_of_fresh {head : Char} {tail : List Char} (fresh : head ∉ tail) :
    ∀ (key value : List Char), ¬ (head :: tail) <:+: key →
      strstr (head :: tail) (key ++ (head :: tail) ++ value) = some (key, value)
  | [], value, _ => by
      rw [List.nil_append, strstr_at_start (List.isPrefixOf_iff_prefix.mpr (List.prefix_append _ _))]
      simp
  | c :: key, value, clean => by
      have missed : (head :: tail).isPrefixOf (c :: key ++ (head :: tail) ++ value) = false := by
        refine Bool.eq_false_iff.mpr fun test => ?_
        have found := List.isPrefixOf_iff_prefix.mp test
        by_cases short : tail.length ≤ key.length
        · exact clean (List.prefix_of_prefix_length_le found
            ((List.prefix_append (c :: key) _).trans (List.prefix_append _ _)) (by simpa using short)).isInfix
        · obtain ⟨-, inTail⟩ := List.cons_prefix_cons.mp
            (show head :: tail <+: c :: (key ++ head :: (tail ++ value)) by simpa using found)
          obtain ⟨rest, rfl⟩ := List.prefix_of_prefix_length_le (List.prefix_append key _) inTail
            (by omega)
          rw [List.append_assoc, List.prefix_append_right_inj] at inTail
          cases rest with
          | nil => simp at short
          | cons d rest =>
              obtain ⟨rfl, -⟩ := List.cons_prefix_cons.mp inTail
              exact fresh (List.mem_append_right key (List.mem_cons_self d rest))
      have later : ¬ (head :: tail) <:+: key := fun occurs => clean (List.infix_cons occurs)
      rw [List.append_assoc, List.cons_append, strstr_cons_of_missed (by simpa using missed),
        ← List.append_assoc, strstr_append_of_fresh fresh key value later]
      rfl

end Strstr

theorem gStrchomp_append_spaces {s spaces : List Char} (lastKept : ∀ c ∈ s.getLast?, isAsciiSpace c = false)
    (blanks : ∀ c ∈ spaces, isAsciiSpace c = true) : gStrchomp (s ++ spaces) = s := by
  rw [gStrchomp, List.reverse_append, List.dropWhile_append_of_pos fun c member => blanks c (List.mem_reverse.mp member)]
  rcases List.eq_nil_or_concat s with rfl | ⟨front, last, rfl⟩
  · rfl
  · have kept : isAsciiSpace last = false := lastKept last (by simp)
    simp [List.dropWhile_cons, kept]

/-! ## Splitting and joining -/

theorem strsplitFrom_ne_nil (delimiter : List Char) :
    ∀ (splits : Nat) (s : List Char), strsplitFrom delimiter splits s ≠ [] := by
  intro splits s
  cases splits with
  | zero => simp [strsplitFrom]
  | succ splits => simp only [strsplitFrom]; split <;> simp

theorem strsplitFrom_succ_of_none {delimiter s : List Char} (splits : Nat)
    (missed : strstr delimiter s = none) : strsplitFrom delimiter (splits + 1) s = [s] := by
  simp [strsplitFrom, missed]

theorem strsplitFrom_succ_of_some {delimiter s before after : List Char} (splits : Nat)
    (found : strstr delimiter s = some (before, after)) :
    strsplitFrom delimiter (splits + 1) s = before :: strsplitFrom delimiter splits after := by
  simp [strsplitFrom, found]

theorem gStrsplit_of_ne_nil {s : List Char} (delimiter : List Char) (nonempty : s ≠ [])
    (splits : Nat) : gStrsplit s delimiter (splits + 1) = strsplitFrom delimiter splits s := by
  simp [gStrsplit, nonempty]

theorem gStrjoinv_strsplitFrom {delimiter : List Char} (nonempty : delimiter ≠ []) :
    ∀ (splits : Nat) (s : List Char), gStrjoinv delimiter (strsplitFrom delimiter splits s) = s := by
  intro splits
  induction splits with
  | zero => intro s; rfl
  | succ splits ih =>
      intro s
      cases found : strstr delimiter s with
      | none => simp [strsplitFrom, found]
      | some parts =>
          obtain ⟨before, after⟩ := parts
          have tail := ih after
          have split := (strstr_eq_some nonempty found).1
          cases tokens : strsplitFrom delimiter splits after with
          | nil => exact absurd tokens (strsplitFrom_ne_nil delimiter splits after)
          | cons first more =>
              simp only [strsplitFrom, found, tokens, gStrjoinv_cons_cons]
              rw [tokens] at tail
              rw [tail, split, List.append_assoc]

theorem cString_of_nul_not_mem {buffer : List Char} (noNul : '\x00' ∉ buffer) : cString buffer = buffer := by
  rw [cString, List.takeWhile_eq_self_iff]
  intro c member
  have notNul : c ≠ '\x00' := fun same => noNul (same ▸ member)
  simpa using notNul

theorem append_cons_cancel {α : Type} {sep : α} :
    ∀ {first₁ first₂ rest₁ rest₂ : List α}, sep ∉ first₁ → sep ∉ first₂ →
      first₁ ++ sep :: rest₁ = first₂ ++ sep :: rest₂ → first₁ = first₂ ∧ rest₁ = rest₂
  | [], [], _, _, _, _, same => ⟨rfl, (List.cons.inj same).2⟩
  | [], c :: _, _, _, _, absent₂, same => by
      rw [(List.cons.inj same).1] at absent₂
      exact absurd (List.mem_cons_self c _) absent₂
  | c :: _, [], _, _, absent₁, _, same => by
      rw [← (List.cons.inj same).1] at absent₁
      exact absurd (List.mem_cons_self c _) absent₁
  | c :: first₁, d :: first₂, rest₁, rest₂, absent₁, absent₂, same => by
      obtain ⟨rfl, tails⟩ := List.cons.inj same
      obtain ⟨rfl, rfl⟩ := append_cons_cancel (List.not_mem_of_not_mem_cons absent₁)
        (List.not_mem_of_not_mem_cons absent₂) tails
      exact ⟨rfl, rfl⟩

end Ds3
