import Mathlib.Data.List.Basic

/-! # Document trees as libxml2 hands them to the decoders

The decoders walk `xmlNode` lists and dispatch on `node->name` alone, never on
`node->type`.  libxml2 names a text node `"text"`, a comment `"comment"`, and a
processing instruction after its target, so `<?Objects x?>` is a child named
`Objects` exactly like an element `<Objects/>`.  The tree keeps the four node
kinds a document without a DTD can hold; a CDATA section behaves as a text node
for every function here (its name matches no name the decoders look for, and
`xmlNodeListGetString` reads its text), so it is one.

Attribute values are kept decoded, as `xmlNodeListGetString` returns them.  The
character classes of XML 1.0 (fifth edition), as libxml2 tests them, close the
module: the writer and the parser both use them. -/

set_option autoImplicit false

namespace Ds3.Xml

/-- A node of a parsed document. -/
inductive XmlNode where
  | element (name : String) (attributes : List (String × String)) (children : List XmlNode)
  | text (content : String)
  | comment (content : String)
  | pi (target : String) (content : String)
deriving Repr

namespace XmlNode

/-- The node's `name` as the decoders compare it with `xmlStrcmp`. -/
def name : XmlNode → String
  | .element name _ _ => name
  | .text _ => "text"
  | .comment _ => "comment"
  | .pi target _ => target

/-- The node's `xmlChildrenNode` list. -/
def children : XmlNode → List XmlNode
  | .element _ _ children => children
  | _ => []

/-- The node's `properties`: the attributes of an element. -/
def properties : XmlNode → List (String × String)
  | .element _ attributes _ => attributes
  | _ => []

def textContent : XmlNode → Option String
  | .text content => some content
  | _ => none

@[simp] theorem name_element (name : String) (attributes : List (String × String))
    (children : List XmlNode) : (element name attributes children).name = name := rfl

@[simp] theorem name_text (content : String) : (text content).name = "text" := rfl

@[simp] theorem children_element (name : String) (attributes : List (String × String))
    (children : List XmlNode) : (element name attributes children).children = children := rfl

@[simp] theorem properties_element (name : String) (attributes : List (String × String))
    (children : List XmlNode) : (element name attributes children).properties = attributes := rfl

end XmlNode

/-- Models `xmlNodeListGetString (doc, list, 1)`: the text of the list's text
nodes, concatenated, and `NULL` when there is none. -/
def nodeListGetString (nodes : List XmlNode) : Option String :=
  match nodes.filterMap XmlNode.textContent with
  | [] => none
  | texts => some (String.join texts)

/-- Models `xmlNodeListGetString (doc, attribute->children, 1)` on an attribute
of a parsed document.  libxml2's SAX2 builder gives every attribute a text
child, an empty one for an empty value, so the text is never `NULL`. -/
def attributeText (value : String) : Option String := some value

/-! ## Characters -/

/-- XML's `Char` production, on a code point. -/
def isXmlCode (n : Nat) : Bool :=
  n == 0x9 || n == 0xA || n == 0xD || (0x20 ≤ n && n ≤ 0xD7FF) || (0xE000 ≤ n && n ≤ 0xFFFD) ||
    (0x10000 ≤ n && n ≤ 0x10FFFF)

/-- The characters a document may hold. -/
def isXmlChar (c : Char) : Bool := isXmlCode c.toNat

/-- libxml2's `IS_BLANK_CH`: XML's white space. -/
def isBlank (c : Char) : Bool := c == ' ' || c == '\t' || c == '\n' || c == '\r'

/-- Models `xmlIsNameStartChar`. -/
def isNameStartChar (c : Char) : Bool :=
  let n := c.toNat
  ('a' ≤ c && c ≤ 'z') || ('A' ≤ c && c ≤ 'Z') || c == '_' || c == ':' ||
    (0xC0 ≤ n && n ≤ 0xD6) || (0xD8 ≤ n && n ≤ 0xF6) || (0xF8 ≤ n && n ≤ 0x2FF) ||
    (0x370 ≤ n && n ≤ 0x37D) || (0x37F ≤ n && n ≤ 0x1FFF) || (0x200C ≤ n && n ≤ 0x200D) ||
    (0x2070 ≤ n && n ≤ 0x218F) || (0x2C00 ≤ n && n ≤ 0x2FEF) || (0x3001 ≤ n && n ≤ 0xD7FF) ||
    (0xF900 ≤ n && n ≤ 0xFDCF) || (0xFDF0 ≤ n && n ≤ 0xFFFD) || (0x10000 ≤ n && n ≤ 0xEFFFF)

/-- Models `xmlIsNameChar`. -/
def isNameChar (c : Char) : Bool :=
  let n := c.toNat
  isNameStartChar c || c == '-' || c == '.' || ('0' ≤ c && c ≤ '9') || n == 0xB7 ||
    (0x300 ≤ n && n ≤ 0x36F) || (0x203F ≤ n && n ≤ 0x2040)

/-- An XML `Name`: a name start character and name characters after it. -/
def isName (name : List Char) : Bool :=
  match name with
  | c :: rest => isNameStartChar c && rest.all isNameChar
  | [] => false

/-- `XML_MAX_TEXT_LENGTH`: `xmlParseMemory` does not set `XML_PARSE_HUGE`, so
libxml2 refuses an attribute value longer than this. -/
def xmlMaxTextLength : Nat := 10000000

/-- An attribute that reads back as it was written: an XML name, and a value of
XML characters within `XML_MAX_TEXT_LENGTH`. -/
def attributeFits (property : String × String) : Bool :=
  isName property.1.toList && property.2.toList.all isXmlChar &&
    decide (property.2.toList.length ≤ xmlMaxTextLength)

end Ds3.Xml
