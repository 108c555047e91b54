import Ds3.Numbers
import Ds3.Strings
import Ds3.Xml.Tree

/-! # Reading a document: `xmlParseMemory`

`xmlParseMemory (buffer, size)` reads a whole document held in memory and gives
its tree, or `NULL` when the text is not a well-formed document;
`xmlDocGetRootElement` then gives the root.  The model reads an optional XML
declaration, then elements with attributes, character data with the five
predefined entities and character references, CDATA sections, comments and
processing instructions.  Blank text is kept as text nodes, as libxml2 keeps it
by default, and the text between two tags is one node.

libxml2 runs without `XML_PARSE_HUGE`, and the model keeps two of its limits: an
attribute value of at most `XML_MAX_TEXT_LENGTH` characters once decoded, and
elements nested at most `xmlParserMaxDepth` deep.

Left out: a document type declaration is refused, where libxml2 reads it; and
the model accepts a few texts that libxml2 refuses (a reference in the blank
text around the root, `]]>` in character data, pseudo-attributes of the
declaration other than `version` first, a text node longer than
`XML_MAX_TEXT_LENGTH`, a name longer than `XML_MAX_NAME_LENGTH`).  Namespaces
are not processed: a name keeps its prefix, and an `xmlns` attribute stays an
attribute, where libxml2 gives the local name and an `nsDef`.

Every loop reads the input from the front, so the parser runs on fuel, and the
length of the input is enough fuel (`parseDocument`). -/

set_option autoImplicit false

namespace Ds3.Xml

open Ds3

/-! ## Characters and references -/

/-- One step of libxml2's line-end handling: the text so far, and whether the
last character read was a carriage return. -/
def lineEndStep (state : List Char × Bool) (c : Char) : List Char × Bool :=
  if c = '\r' then (state.1 ++ ['\n'], true)
  else if c = '\n' ∧ state.2 then (state.1, false)
  else (state.1 ++ [c], false)

/-- Models the input layer of libxml2: CR LF and a lone CR read as LF. -/
def normalizeLineEnds (input : List Char) : List Char := (input.foldl lineEndStep ([], false)).1

/-- Models `xmlParseName`: a name start character and the name characters after it. -/
def parseName : List Char → Option (List Char × List Char)
  | c :: rest =>
      if isNameStartChar c then some (c :: rest.takeWhile isNameChar, rest.dropWhile isNameChar)
      else none
  | [] => none

/-- The character with code `code`, when XML allows it. -/
def xmlCharOfCode (code : Nat) : Option Char := if isXmlCode code then some (Char.ofNat code) else none

def hexDigitsValue (digits : List Char) : Option Nat :=
  digits.foldlM (fun value c => (fun d => 16 * value + d) <$> hexValue c) 0

/-- Models `xmlParseCharRef` and the predefined entities of `xmlParseEntityRef`:
the character that the reference `&name;` stands for. -/
def referenceChar (name : List Char) : Option Char :=
  match name with
  | '#' :: 'x' :: digits => if digits = [] then none else (hexDigitsValue digits).bind xmlCharOfCode
  | '#' :: digits =>
      if digits ≠ [] ∧ digits.all Char.isDigit then xmlCharOfCode (decimalValue digits) else none
  | _ =>
      if name = "lt".toList then some '<'
      else if name = "gt".toList then some '>'
      else if name = "amp".toList then some '&'
      else if name = "quot".toList then some '"'
      else if name = "apos".toList then some (Char.ofNat 39)
      else none

/-- Text being read: the characters so far, and the name of a reference `&…;`
being read. -/
structure TextState where
  text : List Char
  reference : Option (List Char)

/-- Reads one character of character data or, with `inValue`, of an attribute
value, where a `<` is an error and each blank reads as a space. -/
def textStep (inValue : Bool) (state : TextState) (c : Char) : Option TextState :=
  match state.reference with
  | some name =>
      if c = ';' then (referenceChar name).map fun r => ⟨state.text ++ [r], none⟩
      else some ⟨state.text, some (name ++ [c])⟩
  | none =>
      if c = '&' then some ⟨state.text, some []⟩
      else if inValue ∧ c = '<' then none
      else if isXmlChar c = false then none
      else if inValue ∧ isBlank c then some ⟨state.text ++ [' '], none⟩
      else some ⟨state.text ++ [c], none⟩

/-- Reads character data or, with `inValue`, an attribute value: nothing when a
reference is not closed or not known, or a character is not allowed. -/
def decodeText (inValue : Bool) (raw : List Char) : Option (List Char) :=
  match raw.foldlM (textStep inValue) ⟨[], none⟩ with
  | some ⟨text, none⟩ => some text
  | _ => none

/-! ## Tags -/

/-- Models the attribute loop of `xmlParseStartTag2`: each attribute follows
blanks and is written `Name = "value"` or with single quotes, blanks allowed
around `=`; an attribute given twice, or a value longer than
`XML_MAX_TEXT_LENGTH`, is an error.  The loop stops before blanks that no name
follows. -/
def parseAttributes : Nat → List Char → Option (List (String × String) × List Char)
  | 0, _ => none
  | fuel + 1, input =>
      match input with
      | c :: rest =>
          if isBlank c then
            match parseName (rest.dropWhile isBlank) with
            | none => some ([], input)
            | some (name, afterName) =>
                match afterName.dropWhile isBlank with
                | '=' :: afterEq =>
                    match afterEq.dropWhile isBlank with
                    | quote :: afterQuote =>
                        if quote = '"' ∨ quote = Char.ofNat 39 then
                          match afterQuote.span (· ≠ quote) with
                          | (raw, _ :: afterValue) =>
                              (decodeText true raw).bind fun value =>
                                if xmlMaxTextLength < value.length then none
                                else (parseAttributes fuel afterValue).bind fun (attributes, after) =>
                                  if attributes.any (·.1 == String.mk name) then none
                                  else some ((String.mk name, String.mk value) :: attributes, after)
                          | (_, []) => none
                        else none
                    | [] => none
                | _ => none
          else some ([], input)
      | [] => some ([], [])

/-- Models the end of a start tag: `/>` closes an empty element, `>` starts the
content. -/
def parseTagClose (input : List Char) : Option (Bool × List Char) :=
  match input.dropWhile isBlank with
  | '/' :: '>' :: rest => some (true, rest)
  | '>' :: rest => some (false, rest)
  | _ => none

/-- Models `xmlParseEndTag2`: `</`, the element's name, blanks, `>`. -/
def parseEndTag (name : List Char) (input : List Char) : Option (List Char) :=
  match input with
  | '<' :: '/' :: rest =>
      if name.isPrefixOf rest then
        match (rest.drop name.length).dropWhile isBlank with
        | '>' :: after => some after
        | _ => none
      else none
  | _ => none

/-- Models `xmlParseComment` after `<!--`: the text up to `-->`, which may not hold
`--` or end with `-`. -/
def parseComment (input : List Char) : Option (XmlNode × List Char) :=
  match strstr "-->".toList input with
  | some (content, after) =>
      if content.all isXmlChar ∧ strstr "--".toList content = none ∧ content.getLast? ≠ some '-' then
        some (.comment (String.mk content), after)
      else none
  | none => none

/-- Models `xmlParseCDSect` after `<![CDATA[`: the text up to `]]>`. -/
def parseCData (input : List Char) : Option (XmlNode × List Char) :=
  match strstr "]]>".toList input with
  | some (content, after) =>
      if content.all isXmlChar then some (.text (String.mk content), after) else none
  | none => none

/-- What follows `<!` in content: a comment or a CDATA section. -/
def parseMarkupDecl (input : List Char) : Option (XmlNode × List Char) :=
  match input with
  | '-' :: '-' :: rest => parseComment rest
  | '[' :: 'C' :: 'D' :: 'A' :: 'T' :: 'A' :: '[' :: rest => parseCData rest
  | _ => none

/-- Models `xmlParsePI` after `<?`: a target other than `xml` in any case, then
`?>`, or blanks and the text up to `?>`. -/
def parseInstruction (input : List Char) : Option (XmlNode × List Char) :=
  match parseName input with
  | some (target, after) =>
      if target.map Char.toLower = "xml".toList then none
      else match after with
        | '?' :: '>' :: rest => some (.pi (String.mk target) "", rest)
        | c :: rest =>
            if isBlank c then
              match strstr "?>".toList (rest.dropWhile isBlank) with
              | some (content, afterEnd) =>
                  if content.all isXmlChar then some (.pi (String.mk target) (String.mk content), afterEnd)
                  else none
              | none => none
            else none
        | [] => none
  | none => none

/-! ## Content -/

def prepend (node : XmlNode) (result : Option (List XmlNode × List Char)) :
    Option (List XmlNode × List Char) :=
  result.map fun read => (node :: read.1, read.2)

/-- `xmlParserMaxDepth`: without `XML_PARSE_HUGE`, libxml2 refuses to open an
element inside more than this many open elements. -/
def xmlParserMaxDepth : Nat := 256

/-- Models libxml2's content loop (`xmlParseContent`, with `xmlParseElement` for
each element) inside `depth` open elements: the nodes up to an end tag or the
end of the input, and the input from there. -/
def parseNodes : Nat → Nat → List Char → Option (List XmlNode × List Char)
  | 0, _, _ => none
  | _ + 1, _, [] => some ([], [])
  | fuel + 1, depth, c :: rest =>
      if c ≠ '<' then
        let (raw, after) := (c :: rest).span (· ≠ '<')
        (decodeText false raw).bind fun text => prepend (.text (String.mk text)) (parseNodes fuel depth after)
      else match rest with
        | [] => none
        | d :: more =>
            if d = '/' then some ([], c :: rest)
            else if d = '!' then
              (parseMarkupDecl more).bind fun read => prepend read.1 (parseNodes fuel depth read.2)
            else if d = '?' then
              (parseInstruction more).bind fun read => prepend read.1 (parseNodes fuel depth read.2)
            else if xmlParserMaxDepth < depth then none
            else
              (parseName (d :: more)).bind fun (name, afterName) =>
                (parseAttributes fuel afterName).bind fun (attributes, afterAttributes) =>
                  (parseTagClose afterAttributes).bind fun (empty, afterTag) =>
                    if empty then
                      prepend (.element (String.mk name) attributes []) (parseNodes fuel depth afterTag)
                    else
                      (parseNodes fuel (depth + 1) afterTag).bind fun (children, afterChildren) =>
                        (parseEndTag name afterChildren).bind fun afterEnd =>
                          prepend (.element (String.mk name) attributes children) (parseNodes fuel depth afterEnd)

/-! ## Documents -/

/-- Models the XML declaration at the start of a document: `<?xml`, blanks,
pseudo-attributes of which the first is `version`, and `?>`.  A text that does
not start with `<?xml` and a blank has no declaration. -/
def skipXmlDecl (input : List Char) : Option (List Char) :=
  match input with
  | '<' :: '?' :: 'x' :: 'm' :: 'l' :: c :: rest =>
      if isBlank c then
        (parseAttributes input.length (c :: rest)).bind fun (pseudo, after) =>
          match after.dropWhile isBlank with
          | '?' :: '>' :: body => if pseudo.head?.map Prod.fst = some "version" then some body else none
          | _ => none
      else some input
  | _ => some input

/-- A node that may stand outside the root: a comment, a processing instruction,
or blank text. -/
def isMisc : XmlNode → Bool
  | .comment _ => true
  | .pi _ _ => true
  | .text content => content.toList.all isBlank
  | .element _ _ _ => false

/-- Models `xmlParseMemory` followed by `xmlDocGetRootElement`: the root element of
a well-formed document, and nothing where `xmlParseMemory` gives `NULL`. -/
def parseDocument (input : List Char) : Option XmlNode :=
  (skipXmlDecl (normalizeLineEnds input)).bind fun body =>
    (parseNodes (body.length + 1) 0 body).bind fun (nodes, rest) =>
      if rest = [] then
        match nodes.filter fun node => !isMisc node with
        | [.element name attributes children] => some (.element name attributes children)
        | _ => none
      else none

end Ds3.Xml
