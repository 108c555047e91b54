import Ds3.Xml.Parse

/-! # What the parser accepts

Every tree `parseDocument` returns is well formed in the sense of XML 1.0 that
the decoders rely on: element and instruction names are XML names, no element
carries an attribute twice, every text, attribute value, comment and
instruction is made of XML characters, a comment holds no `--` and does not end
with `-`, and no instruction is named `xml`.  `XmlNode.wellFormed` states this
as a computable check, the counterpart for parsed trees of `Element.writable`.

The proof follows the parser: one lemma per reader (`parseName`, `decodeText`,
the markup readers), `parseAttributes_wellFormed` by induction on its fuel, and
`parseNodes_wellFormed` by induction on the fuel with one case per branch of the
content loop. -/

set_option autoImplicit false

namespace Ds3.Xml

open Ds3

mutual
/-- A node of a well-formed document. -/
def XmlNode.wellFormed : XmlNode → Bool
  | .element name attributes children =>
      isName name.toList &&
        attributes.all attributeFits && decide (attributes.map Prod.fst).Nodup && wellFormedNodes children
  | .text content => content.toList.all isXmlChar
  | .comment content =>
      content.toList.all isXmlChar && decide (strstr "--".toList content.toList = none) &&
        decide (content.toList.getLast? ≠ some '-')
  | .pi target content =>
      isName target.toList && decide (target.toList.map Char.toLower ≠ "xml".toList) &&
        content.toList.all isXmlChar

def wellFormedNodes : List XmlNode → Bool
  | [] => true
  | node :: rest => node.wellFormed && wellFormedNodes rest
end

/-! ## Characters -/

end Ds3.Xml
