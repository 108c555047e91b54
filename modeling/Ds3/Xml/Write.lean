import Ds3.Numbers
import Ds3.Xml.Tree

/-! # Writing a document: `xmlDocDumpFormatMemory`

`ds3_bulk` builds its manifest with `xmlNewNode`, `xmlSetProp` and
`xmlAddChild`, so the tree it writes holds elements and attributes only: an
`Element`.  `xmlDocDumpFormatMemory (doc, &buf, &size, 1)` writes the XML
declaration and then the root, each element's children on lines of their own,
indented by two spaces a level.  The document has no encoding, so the output is
ASCII: attribute values escape markup characters, line ends and tabs, and write
every other non-ASCII character as a hexadecimal character reference.

What the writer does with text, comment and processing-instruction nodes is
left out: `ds3_bulk` never builds one. -/

set_option autoImplicit false

namespace Ds3.Xml

/-- An element built with `xmlNewNode`, `xmlSetProp` and `xmlAddChild`: its name,
its attributes in the order they were set, and its children. -/
inductive Element where
  | mk (name : String) (attributes : List (String × String)) (children : List Element)

/-- Models `xmlSerializeHexCharRef`: `&#x`, the code in upper-case hexadecimal, `;`. -/
def hexCharRef (code : Nat) : List Char :=
  "&#x".toList ++ (Nat.toDigits 16 code).map Char.toUpper ++ [';']

/-- Models `xmlBufAttrSerializeTxtContent` on one character of a value, in a
document without an encoding.  A non-ASCII character outside XML's `Char` is
written byte by byte. -/
def escapeAttrChar (c : Char) : List Char :=
  if c = '\n' then "&#10;".toList
  else if c = '\r' then "&#13;".toList
  else if c = '\t' then "&#9;".toList
  else if c = '"' then "&quot;".toList
  else if c = '<' then "&lt;".toList
  else if c = '>' then "&gt;".toList
  else if c = '&' then "&amp;".toList
  else if 0x80 ≤ c.toNat then
    if isXmlChar c then hexCharRef c.toNat
    else (String.utf8EncodeChar c).flatMap fun byte => hexCharRef byte.toNat
  else [c]

/-- Models `xmlBufAttrSerializeTxtContent`. -/
def escapeAttrValue (value : List Char) : List Char := value.flatMap escapeAttrChar

/-- Models `xmlAttrDumpOutput`: a blank, the name, and the escaped value in
double quotes. -/
def dumpAttribute (property : String × String) : List Char :=
  ' ' :: property.1.toList ++ '=' :: '"' :: escapeAttrValue property.2.toList ++ ['"']

/-- The indentation of a line at `level`: two spaces a level, up to libxml2's
limit of 30 levels. -/
def indent (level : Nat) : List Char := List.replicate (2 * min level 30) ' '

mutual
/-- Models `xmlNodeDumpOutputInternal` on an element at `level`, formatting on:
an element without children is closed by `/>`, the end tag of any other goes on
a line of its own. -/
def dumpElement (level : Nat) : Element → List Char
  | .mk name attributes children =>
      '<' :: name.toList ++ attributes.flatMap dumpAttribute ++
        match children with
        | [] => "/>".toList
        | _ => '>' :: dumpChildren (level + 1) children ++
            '\n' :: indent level ++ '<' :: '/' :: name.toList ++ ['>']

/-- Models `xmlNodeListDumpOutput`: each child on a line of its own at `level`.
The line break that ends a child's line is written before the next line. -/
def dumpChildren (level : Nat) : List Element → List Char
  | [] => []
  | child :: rest => '\n' :: indent level ++ dumpElement level child ++ dumpChildren level rest
end

/-- Models `xmlDocDumpFormatMemory (doc, &buf, &size, 1)` for a document made by
`xmlNewDoc ("1.0")` with root `root`: the declaration without an encoding, the
root, a line break. -/
def xmlDocDumpFormatMemory (root : Element) : List Char :=
  "<?xml version=\"1.0\"?>\n".toList ++ dumpElement 0 root ++ ['\n']

mutual
/-- The elements that read back as they were written: names are XML names,
attributes fit, and no element sets an attribute twice. -/
def Element.writable : Element → Bool
  | .mk name attributes children =>
      isName name.toList && attributes.all attributeFits &&
        decide (attributes.map Prod.fst).Nodup && writableChildren children

def writableChildren : List Element → Bool
  | [] => true
  | child :: rest => child.writable && writableChildren rest
end

/-! ## What the output is made of -/

theorem hexCharRef_digits (code : Nat) :
    ∃ digits : List Nat, (Nat.toDigits 16 code).map Char.toUpper =
        digits.map (fun d => (Nat.digitChar d).toUpper) ∧ digits ≠ [] ∧
      (∀ d ∈ digits, d < 16) ∧ digits.foldl (fun value d => 16 * value + d) 0 = code := by
  obtain ⟨digits, core, nonempty, below, value⟩ :=
    toDigitsCore_spells 16 (by decide) (code + 1) code [] (by omega)
  rw [List.append_nil] at core
  exact ⟨digits, by rw [Nat.toDigits, core, List.map_map]; rfl, nonempty, below, value⟩

/-- What the writer may put in a value: an XML character other than the double
quote, which would end the value, and the carriage return, which the parser
would read as a line feed. -/
def ValueChar (c : Char) : Prop := c ≠ '"' ∧ c ≠ '\r' ∧ isXmlChar c = true

theorem upperHexDigit_valueChar : ∀ d, d < 16 → ValueChar (Nat.digitChar d).toUpper := by
  unfold ValueChar; decide

theorem hexCharRef_valueChar (code : Nat) : ∀ c ∈ hexCharRef code, ValueChar c := by
  obtain ⟨digits, spell, -, below, -⟩ := hexCharRef_digits code
  intro c member
  simp only [hexCharRef, spell, List.mem_append, List.mem_map, List.mem_singleton] at member
  rcases member with (literal | ⟨d, digit, rfl⟩) | rfl
  · revert c; unfold ValueChar; decide
  · exact upperHexDigit_valueChar d (below d digit)
  · unfold ValueChar; decide

theorem forall_mem_ite {α : Type} {p : Prop} [Decidable p] {yes no : List α} {P : α → Prop}
    (ofYes : p → ∀ e ∈ yes, P e) (ofNo : ¬ p → ∀ e ∈ no, P e) :
    ∀ e ∈ (if p then yes else no), P e := by
  by_cases holds : p
  · rw [if_pos holds]; exact ofYes holds
  · rw [if_neg holds]; exact ofNo holds

theorem escapeAttrChar_valueChar (c : Char) (allowed : isXmlChar c = true) :
    ∀ e ∈ escapeAttrChar c, ValueChar e := by
  unfold escapeAttrChar
  refine forall_mem_ite (fun _ => by unfold ValueChar; decide) fun _ => ?_
  refine forall_mem_ite (fun _ => by unfold ValueChar; decide) fun ret => ?_
  refine forall_mem_ite (fun _ => by unfold ValueChar; decide) fun _ => ?_
  refine forall_mem_ite (fun _ => by unfold ValueChar; decide) fun quote => ?_
  refine forall_mem_ite (fun _ => by unfold ValueChar; decide) fun _ => ?_
  refine forall_mem_ite (fun _ => by unfold ValueChar; decide) fun _ => ?_
  refine forall_mem_ite (fun _ => by unfold ValueChar; decide) fun _ => ?_
  refine forall_mem_ite (fun _ => forall_mem_ite (fun _ => hexCharRef_valueChar _)
    fun outside => absurd allowed outside) fun _ => ?_
  intro e member
  rw [List.mem_singleton.mp member]
  exact ⟨quote, ret, allowed⟩

theorem escapeAttrValue_valueChar (value : List Char) (allowed : value.all isXmlChar = true) :
    ∀ e ∈ escapeAttrValue value, ValueChar e := by
  intro e member
  obtain ⟨c, source, escaped⟩ := List.mem_flatMap.mp member
  exact escapeAttrChar_valueChar c (List.all_eq_true.mp allowed c source) e escaped

theorem escapeAttrValue_of_plain : ∀ (value : List Char), (∀ c ∈ value, escapeAttrChar c = [c]) →
    escapeAttrValue value = value
  | [], _ => rfl
  | c :: rest, plain => by
      rw [escapeAttrValue, List.flatMap_cons, ← escapeAttrValue, plain c (List.mem_cons_self c rest),
        escapeAttrValue_of_plain rest fun d member => plain d (List.mem_cons_of_mem c member)]
      rfl

/-! ## Where the parts of an element are written -/

theorem dumpAttribute_infix_dumpElement (level : Nat) (name : String) {attributes : List (String × String)}
    (children : List Element) {property : String × String} (member : property ∈ attributes) :
    dumpAttribute property <:+: dumpElement level (.mk name attributes children) :=
  (List.infix_of_mem_flatten (List.mem_map_of_mem dumpAttribute member)).trans (List.infix_append _ _ _)

theorem dumpElement_infix_dumpChildren (level : Nat) {child : Element} :
    ∀ {children : List Element}, child ∈ children → dumpElement level child <:+: dumpChildren level children
  | [], member => absurd member (List.not_mem_nil child)
  | first :: rest, member => by
      rw [dumpChildren]
      rcases List.mem_cons.mp member with rfl | later
      · exact List.infix_append _ _ _
      · exact (dumpElement_infix_dumpChildren level later).trans (List.suffix_append _ _).isInfix

theorem dumpChildren_infix_dumpElement (level : Nat) (name : String) (attributes : List (String × String)) :
    ∀ children : List Element, dumpChildren (level + 1) children <:+: dumpElement level (.mk name attributes children)
  | [] => List.nil_infix
  | child :: rest =>
      ⟨'<' :: name.toList ++ attributes.flatMap dumpAttribute ++ ['>'],
        '\n' :: indent level ++ '<' :: '/' :: name.toList ++ ['>'], by simp [dumpElement]⟩

end Ds3.Xml
