import Ds3.Xml.Parse
import Ds3.Xml.Write

/-! # The parser reads back what the writer wrote

`parseDocument_xmlDocDumpFormatMemory`: for every writable element tree, the root
that `xmlParseMemory` reads from the text `xmlDocDumpFormatMemory` wrote is the
tree itself, with the line breaks and indentation of the formatted output as
blank text nodes among the children (`Element.reread`).

The proof follows the writer: a name reads back up to the first character that
cannot continue it, an escaped value reads back as the value, the attributes of
a start tag as the attributes, and an element and a list of children by
induction on the tree.  The fuel is bounded by the length of the text still to
read. -/

set_option autoImplicit false

namespace Ds3.Xml

open Ds3

/-- The blank text that formatted output puts before a line at `level`. -/
def lineBreak (level : Nat) : XmlNode := .text (String.mk ('\n' :: indent level))

mutual
/-- The tree the parser reads back for an element written at `level`. -/
def Element.reread (level : Nat) : Element → XmlNode
  | .mk name attributes children =>
      .element name attributes (match children with
        | [] => []
        | _ => rereadChildren (level + 1) children ++ [lineBreak level])

/-- The nodes the parser reads back for children written at `level`, up to the
line break before their parent's end tag. -/
def rereadChildren (level : Nat) : List Element → List XmlNode
  | [] => []
  | child :: rest => lineBreak level :: child.reread level :: rereadChildren level rest
end

/-! ## Characters -/

theorem parseName_append (name rest : List Char) (valid : isName name = true)
    (stop : ∀ c tail, rest = c :: tail → isNameChar c = false) :
    parseName (name ++ rest) = some (name, rest) := by
  cases name with
  | nil => cases valid
  | cons start more =>
      simp only [isName, Bool.and_eq_true, List.all_eq_true] at valid
      have stopHere : rest.takeWhile isNameChar = [] ∧ rest.dropWhile isNameChar = rest := by
        cases rest with
        | nil => simp
        | cons c tail => simp [List.takeWhile_cons, List.dropWhile_cons, stop c tail rfl]
      simp [parseName, valid.1, List.takeWhile_append_of_pos valid.2,
        List.dropWhile_append_of_pos valid.2, stopHere.1, stopHere.2]

/-! ## Values -/

theorem foldlM_textStep_reference (inValue : Bool) (text : List Char) :
    ∀ (chars name : List Char), (∀ c ∈ chars, c ≠ ';') →
      chars.foldlM (textStep inValue) ⟨text, some name⟩ = some ⟨text, some (name ++ chars)⟩ := by
  intro chars
  induction chars with
  | nil => intro name _; simp
  | cons c rest ih =>
      intro name noEnd
      have step : textStep inValue ⟨text, some name⟩ c = some ⟨text, some (name ++ [c])⟩ := by
        simp [textStep, noEnd c (List.mem_cons_self c rest)]
      rw [List.foldlM_cons, step, Option.bind_eq_bind, Option.some_bind,
        ih _ fun d member => noEnd d (List.mem_cons_of_mem c member)]
      simp

theorem upperHexDigit_reads : ∀ d, d < 16 →
    hexValue (Nat.digitChar d).toUpper = some d ∧ (Nat.digitChar d).toUpper ≠ ';' := by
  decide

theorem hexDigitsValue_upper (digits : List Nat) (below : ∀ d ∈ digits, d < 16) :
    hexDigitsValue (digits.map fun d => (Nat.digitChar d).toUpper) =
      some (digits.foldl (fun value d => 16 * value + d) 0) := by
  suffices fold : ∀ init, (digits.map fun d => (Nat.digitChar d).toUpper).foldlM
      (fun value c => (fun d => 16 * value + d) <$> hexValue c) init =
        some (digits.foldl (fun value d => 16 * value + d) init) from fold 0
  induction digits with
  | nil => intro init; rfl
  | cons d rest ih =>
      intro init
      rw [List.map_cons, List.foldlM_cons, (upperHexDigit_reads d (below d (List.mem_cons_self d rest))).1]
      exact ih (fun e member => below e (List.mem_cons_of_mem d member)) _

theorem foldlM_hexCharRef (inValue : Bool) (text : List Char) (code : Nat)
    (allowed : isXmlCode code = true) :
    (hexCharRef code).foldlM (textStep inValue) ⟨text, none⟩ =
      some ⟨text ++ [Char.ofNat code], none⟩ := by
  obtain ⟨digits, spell, nonempty, below, value⟩ := hexCharRef_digits code
  have noEnd : ∀ c ∈ digits.map (fun d => (Nat.digitChar d).toUpper), c ≠ ';' := by
    simp only [List.mem_map]
    rintro c ⟨d, member, rfl⟩
    exact (upperHexDigit_reads d (below d member)).2
  have opening : ("&#x".toList).foldlM (textStep inValue) ⟨text, none⟩ = some ⟨text, some ['#', 'x']⟩ :=
    rfl
  rw [hexCharRef, spell, List.foldlM_append, List.foldlM_append, opening, Option.bind_eq_bind,
    Option.some_bind, foldlM_textStep_reference inValue text _ _ noEnd, Option.some_bind]
  have named : referenceChar ('#' :: 'x' :: digits.map fun d => (Nat.digitChar d).toUpper) =
      some (Char.ofNat code) := by
    rw [referenceChar, if_neg (by simpa using nonempty), hexDigitsValue_upper digits below, value]
    simp [xmlCharOfCode, allowed]
  simp [textStep, named]

theorem foldlM_escapeAttrChar (text : List Char) (c : Char) (allowed : isXmlChar c = true) :
    (escapeAttrChar c).foldlM (textStep true) ⟨text, none⟩ = some ⟨text ++ [c], none⟩ := by
  unfold escapeAttrChar
  by_cases newline : c = '\n'
  · subst newline; rfl
  rw [if_neg newline]
  by_cases ret : c = '\r'
  · subst ret; rfl
  rw [if_neg ret]
  by_cases tab : c = '\t'
  · subst tab; rfl
  rw [if_neg tab]
  by_cases quote : c = '"'
  · subst quote; rfl
  rw [if_neg quote]
  by_cases less : c = '<'
  · subst less; rfl
  rw [if_neg less]
  by_cases greater : c = '>'
  · subst greater; rfl
  rw [if_neg greater]
  by_cases amp : c = '&'
  · subst amp; rfl
  rw [if_neg amp]
  by_cases high : 0x80 ≤ c.toNat
  · rw [if_pos high, if_pos allowed, foldlM_hexCharRef true text _ allowed, Char.ofNat_toNat]
  · rw [if_neg high]
    by_cases space : c = ' '
    · subst space; rfl
    · simp [textStep, isBlank, amp, less, allowed, space, newline, ret, tab]

theorem foldlM_escapeAttrValue (value : List Char) (allowed : value.all isXmlChar = true) :
    ∀ text, (escapeAttrValue value).foldlM (textStep true) ⟨text, none⟩ = some ⟨text ++ value, none⟩ := by
  induction value with
  | nil => intro text; simp [escapeAttrValue]
  | cons c rest ih =>
      intro text
      simp only [List.all_cons, Bool.and_eq_true] at allowed
      rw [escapeAttrValue, List.flatMap_cons, List.foldlM_append, foldlM_escapeAttrChar text c allowed.1,
        Option.bind_eq_bind, Option.some_bind, ← escapeAttrValue, ih allowed.2]
      simp

theorem decodeText_escapeAttrValue (value : List Char) (allowed : value.all isXmlChar = true) :
    decodeText true (escapeAttrValue value) = some value := by
  simp [decodeText, foldlM_escapeAttrValue value allowed []]

theorem decodeText_plain (raw : List Char) (plain : ∀ c ∈ raw, c ≠ '&' ∧ isXmlChar c = true) :
    decodeText false raw = some raw := by
  suffices fold : ∀ text, raw.foldlM (textStep false) ⟨text, none⟩ = some ⟨text ++ raw, none⟩ by
    simp [decodeText, fold []]
  induction raw with
  | nil => intro text; simp
  | cons c rest ih =>
      intro text
      obtain ⟨notAmp, allowed⟩ := plain c (List.mem_cons_self c rest)
      rw [List.foldlM_cons, show textStep false ⟨text, none⟩ c = some ⟨text ++ [c], none⟩ by
          simp [textStep, notAmp, allowed], Option.bind_eq_bind, Option.some_bind,
        ih fun d member => plain d (List.mem_cons_of_mem c member)]
      simp

/-! ## Tags -/

theorem isBlank_of_isNameChar {c : Char} (nameChar : isNameChar c = true) : isBlank c = false := by
  by_contra blank
  simp only [isBlank, Bool.not_eq_false, Bool.or_eq_true, beq_iff_eq] at blank
  rcases blank with ((rfl | rfl) | rfl) | rfl <;> exact absurd nameChar (by decide)

theorem isNameChar_of_isNameStartChar {c : Char} (start : isNameStartChar c = true) :
    isNameChar c = true := by
  simp [isNameChar, start]

theorem dropWhile_isBlank_name (name rest : List Char) (valid : isName name = true) :
    (name ++ rest).dropWhile isBlank = name ++ rest := by
  cases name with
  | nil => cases valid
  | cons start more =>
      simp only [isName, Bool.and_eq_true] at valid
      simp [List.dropWhile_cons,
        isBlank_of_isNameChar (isNameChar_of_isNameStartChar valid.1)]

theorem span_escapeAttrValue (value rest : List Char) (allowed : value.all isXmlChar = true) :
    (escapeAttrValue value ++ '"' :: rest).span (· ≠ '"') = (escapeAttrValue value, '"' :: rest) := by
  have inside : ∀ c ∈ escapeAttrValue value, decide (c ≠ '"') = true := fun c member => by
    simpa using (escapeAttrValue_valueChar value allowed c member).1
  rw [List.span_eq_take_drop, List.takeWhile_append_of_pos inside, List.dropWhile_append_of_pos inside]
  simp

theorem parseAttributes_dump : ∀ (attributes : List (String × String)) (fuel : Nat) (rest : List Char),
    attributes.all attributeFits = true →
    (attributes.map Prod.fst).Nodup → (∀ c tail, rest = c :: tail → isBlank c = false) →
    (attributes.flatMap dumpAttribute ++ rest).length < fuel →
    parseAttributes fuel (attributes.flatMap dumpAttribute ++ rest) = some (attributes, rest) := by
  intro attributes
  induction attributes with
  | nil =>
      intro fuel rest _ _ stop bound
      obtain ⟨fuel, rfl⟩ : ∃ f, fuel = f + 1 := ⟨fuel - 1, by simp at bound; omega⟩
      cases rest with
      | nil => rfl
      | cons c tail => simp [parseAttributes, stop c tail rfl]
  | cons property more ih =>
      obtain ⟨⟨name⟩, ⟨value⟩⟩ := property
      intro fuel rest valid distinct stop bound
      obtain ⟨fuel, rfl⟩ : ∃ f, fuel = f + 1 := ⟨fuel - 1, by simp at bound; omega⟩
      simp only [List.all_cons, attributeFits, Bool.and_eq_true, decide_eq_true_eq] at valid
      obtain ⟨⟨⟨validName, validValue⟩, short⟩, validMore⟩ := valid
      change isName name = true at validName
      change value.all isXmlChar = true at validValue
      change value.length ≤ xmlMaxTextLength at short
      simp only [List.map_cons, List.nodup_cons] at distinct
      have later := ih fuel rest validMore distinct.2 stop (by
        simp only [List.flatMap_cons, List.length_append, dumpAttribute, List.length_cons] at bound ⊢
        omega)
      have fresh : (more.any fun property => property.1 == String.mk name) = false := by
        rw [List.any_eq_false]
        intro other member same
        exact distinct.1 (beq_iff_eq.mp same ▸ List.mem_map_of_mem Prod.fst member)
      have input : ((String.mk name, String.mk value) :: more).flatMap dumpAttribute ++ rest =
          ' ' :: (name ++ '=' :: '"' :: (escapeAttrValue value ++ '"' :: (more.flatMap dumpAttribute ++ rest))) := by
        simp [dumpAttribute]
      rw [input, parseAttributes]
      simp only [show isBlank ' ' = true from rfl, if_true]
      rw [dropWhile_isBlank_name _ _ validName, parseName_append name _ validName (fun c tail same => by
        cases same; decide)]
      simp only [List.dropWhile_cons, show isBlank '=' = false from rfl, show isBlank '"' = false from rfl,
        Bool.false_eq_true, if_false, true_or, if_true]
      rw [span_escapeAttrValue _ _ validValue]
      simp only [decodeText_escapeAttrValue _ validValue, Option.some_bind, Nat.not_lt.mpr short, later, fresh,
        Bool.false_eq_true, if_false]

theorem nameStart_ne {c : Char} (start : isNameStartChar c = true) : c ≠ '/' ∧ c ≠ '!' ∧ c ≠ '?' := by
  refine ⟨?_, ?_, ?_⟩ <;> (rintro rfl; exact absurd start (by decide))

theorem parseEndTag_dump (name rest : List Char) :
    parseEndTag name ('<' :: '/' :: (name ++ '>' :: rest)) = some rest := by
  have prefixed : name.isPrefixOf (name ++ '>' :: rest) = true :=
    List.isPrefixOf_iff_prefix.mpr (List.prefix_append name _)
  simp [parseEndTag, prefixed, List.dropWhile_cons, show isBlank '>' = false from rfl]

theorem parseNodes_lineBreak (fuel depth level : Nat) (tail : List Char)
    (stop : ∀ c more, tail = c :: more → c = '<') :
    parseNodes (fuel + 1) depth ('\n' :: (indent level ++ tail)) =
      prepend (lineBreak level) (parseNodes fuel depth tail) := by
  have blanks : ∀ c ∈ indent level, c = ' ' := fun c member => List.eq_of_mem_replicate member
  have split : ('\n' :: (indent level ++ tail)).span (· ≠ '<') = ('\n' :: indent level, tail) := by
    have inside : ∀ c ∈ '\n' :: indent level, decide (c ≠ '<') = true := by
      intro c member
      rcases List.mem_cons.mp member with rfl | spaced
      · decide
      · rw [blanks c spaced]; decide
    have atTail : tail.takeWhile (fun c => decide (c ≠ '<')) = [] ∧
        tail.dropWhile (fun c => decide (c ≠ '<')) = tail := by
      cases tail with
      | nil => simp
      | cons c more => simp [List.takeWhile_cons, List.dropWhile_cons, stop c more rfl]
    rw [List.span_eq_take_drop, ← List.cons_append, List.takeWhile_append_of_pos inside,
      List.dropWhile_append_of_pos inside, atTail.1, atTail.2, List.append_nil]
  have plain : decodeText false ('\n' :: indent level) = some ('\n' :: indent level) := by
    refine decodeText_plain _ fun c member => ?_
    rcases List.mem_cons.mp member with rfl | spaced
    · decide
    · rw [blanks c spaced]; decide
  simp only [parseNodes, ne_eq, show ¬ ('\n' = '<') by decide, not_false_eq_true, if_true, split,
    plain, Option.some_bind, lineBreak]

theorem head_of_dumpAttributes (attributes : List (String × String)) (tail : List Char) :
    ∀ c more, attributes.flatMap dumpAttribute ++ tail = c :: more →
      c = ' ' ∨ (attributes = [] ∧ tail = c :: more) := by
  intro c more same
  cases attributes with
  | nil => exact .inr ⟨rfl, same⟩
  | cons property rest =>
      left
      simp only [List.flatMap_cons, dumpAttribute, List.cons_append] at same
      exact (List.cons.inj same).1.symm

theorem parseNodes_startTag (fuel depth : Nat) (shallow : depth ≤ xmlParserMaxDepth) (name : List Char)
    (attributes : List (String × String)) (afterAttributes : List Char) (validName : isName name = true)
    (validAttributes : attributes.all attributeFits = true)
    (distinct : (attributes.map Prod.fst).Nodup)
    (close : ∃ more, afterAttributes = '/' :: more ∨ afterAttributes = '>' :: more)
    (bound : (name ++ attributes.flatMap dumpAttribute ++ afterAttributes).length < fuel) :
    parseNodes (fuel + 1) depth ('<' :: (name ++ (attributes.flatMap dumpAttribute ++ afterAttributes))) =
      (parseTagClose afterAttributes).bind fun (empty, afterTag) =>
        if empty then prepend (.element (String.mk name) attributes []) (parseNodes fuel depth afterTag)
        else (parseNodes fuel (depth + 1) afterTag).bind fun (children, afterChildren) =>
          (parseEndTag name afterChildren).bind fun afterEnd =>
            prepend (.element (String.mk name) attributes children) (parseNodes fuel depth afterEnd) := by
  obtain ⟨more, closing⟩ := close
  have notBlank : ∀ c tail, afterAttributes = c :: tail → isBlank c = false := by
    intro c tail same
    rcases closing with rfl | rfl <;> (cases same; decide)
  have attributesRead := parseAttributes_dump attributes fuel afterAttributes validAttributes distinct
    notBlank (by simp only [List.length_append] at bound ⊢; omega)
  have nameRead := parseName_append name (attributes.flatMap dumpAttribute ++ afterAttributes) validName
    (fun c tail same => by
      rcases head_of_dumpAttributes attributes afterAttributes c tail same with rfl | ⟨-, same⟩
      · decide
      · rcases closing with rfl | rfl <;> (cases same; decide))
  cases name with
  | nil => cases validName
  | cons start nameRest =>
      have start_ne := nameStart_ne (by simp only [isName, Bool.and_eq_true] at validName; exact validName.1)
      simp only [parseNodes, ne_eq, not_true_eq_false, if_false, List.cons_append, start_ne.1,
        start_ne.2.1, start_ne.2.2, Nat.not_lt.mpr shallow]
      rw [← List.cons_append, nameRead]
      simp only [Option.some_bind, attributesRead]

theorem parseTagClose_empty (rest : List Char) : parseTagClose ('/' :: '>' :: rest) = some (true, rest) := rfl

theorem parseTagClose_open (rest : List Char) : parseTagClose ('>' :: rest) = some (false, rest) := rfl

mutual
/-- The elements libxml2 opens inside `level` open elements without passing
`xmlParserMaxDepth`, and their descendants. -/
def Element.fitsDepth (level : Nat) : Element → Bool
  | .mk _ _ children => decide (level ≤ xmlParserMaxDepth) && fitsDepthChildren (level + 1) children

def fitsDepthChildren (level : Nat) : List Element → Bool
  | [] => true
  | child :: rest => child.fitsDepth level && fitsDepthChildren level rest
end

mutual
theorem parseNodes_dumpElement (level : Nat) : ∀ (element : Element) (fuel : Nat) (rest : List Char),
    element.writable = true → element.fitsDepth level = true → (dumpElement level element ++ rest).length ≤ fuel →
      parseNodes (fuel + 1) level (dumpElement level element ++ rest) =
        prepend (element.reread level) (parseNodes fuel level rest)
  | .mk ⟨name⟩ attributes children, fuel, rest, writable, fits, bound => by
      simp only [Element.writable, Bool.and_eq_true, decide_eq_true_eq] at writable
      obtain ⟨⟨⟨validName, validAttributes⟩, distinct⟩, validChildren⟩ := writable
      simp only [Element.fitsDepth, Bool.and_eq_true, decide_eq_true_eq] at fits
      obtain ⟨shallow, childrenFit⟩ := fits
      cases children with
      | nil =>
          have written : dumpElement level (.mk ⟨name⟩ attributes []) ++ rest =
              '<' :: (name ++ (attributes.flatMap dumpAttribute ++ '/' :: '>' :: rest)) := by
            simp [dumpElement]
          rw [written] at bound ⊢
          rw [parseNodes_startTag fuel level shallow name attributes ('/' :: '>' :: rest) validName
            validAttributes distinct ⟨'>' :: rest, .inl rfl⟩ (by
              simp only [List.length_append, List.length_cons] at bound ⊢; omega), parseTagClose_empty]
          rfl
      | cons child more =>
          have written : dumpElement level (.mk ⟨name⟩ attributes (child :: more)) ++ rest =
              '<' :: (name ++ (attributes.flatMap dumpAttribute ++ '>' ::
                (dumpChildren (level + 1) (child :: more) ++
                  '\n' :: (indent level ++ '<' :: '/' :: (name ++ '>' :: rest))))) := by
            simp [dumpElement]
          rw [written] at bound ⊢
          cases fuel with
          | zero => simp only [List.length_cons] at bound; omega
          | succ fuel =>
              rw [parseNodes_startTag (fuel + 1) level shallow name attributes _ validName validAttributes distinct
                ⟨_, .inr rfl⟩ (by simp only [List.length_append, List.length_cons] at bound ⊢; omega),
                parseTagClose_open]
              simp only [Option.some_bind, Bool.false_eq_true, if_false]
              rw [parseNodes_dumpChildren (level + 1) (child :: more) fuel level (name ++ '>' :: rest)
                validChildren childrenFit (by simp only [List.length_append, List.length_cons] at bound ⊢; omega)]
              simp only [Option.some_bind, parseEndTag_dump]
              rfl
theorem parseNodes_dumpChildren (level : Nat) : ∀ (children : List Element) (fuel closing : Nat)
    (tail : List Char), writableChildren children = true → fitsDepthChildren level children = true →
    (dumpChildren level children ++ '\n' :: (indent closing ++ '<' :: '/' :: tail)).length ≤ fuel →
      parseNodes (fuel + 1) level (dumpChildren level children ++ '\n' :: (indent closing ++ '<' :: '/' :: tail)) =
        some (rereadChildren level children ++ [lineBreak closing], '<' :: '/' :: tail)
  | [], 0, closing, tail, _, _, bound => by
      simp only [dumpChildren, List.nil_append, List.length_cons] at bound; omega
  | [], fuel + 1, closing, tail, _, _, bound => by
      rw [dumpChildren, List.nil_append, parseNodes_lineBreak _ _ _ _ fun c more same => by cases same; rfl]
      rfl
  | child :: more, fuel, closing, tail, writable, fits, bound => by
      simp only [writableChildren, Bool.and_eq_true] at writable
      simp only [fitsDepthChildren, Bool.and_eq_true] at fits
      have opening : ∃ after, dumpElement level child = '<' :: after := by
        cases child; exact ⟨_, rfl⟩
      obtain ⟨after, opening⟩ := opening
      have written : dumpChildren level (child :: more) ++ '\n' :: (indent closing ++ '<' :: '/' :: tail) =
          '\n' :: (indent level ++ (dumpElement level child ++
            (dumpChildren level more ++ '\n' :: (indent closing ++ '<' :: '/' :: tail)))) := by
        simp [dumpChildren]
      rw [written] at bound ⊢
      rw [opening] at bound
      rcases fuel with _ | _ | fuel
      · simp only [List.length_cons, List.length_append] at bound; omega
      · simp only [List.length_cons, List.length_append] at bound; omega
      rw [parseNodes_lineBreak _ _ _ _ fun c rest same => by rw [opening] at same; cases same; rfl]
      rw [parseNodes_dumpElement level child _ _ writable.1 fits.1 (by
        rw [opening]; simp only [List.length_append, List.length_cons] at bound ⊢; omega)]
      rw [parseNodes_dumpChildren level more fuel closing tail writable.2 fits.2 (by
        simp only [List.length_append, List.length_cons] at bound ⊢; omega)]
      rfl
end

/-! ## Documents -/

/-- A character that line-end handling and C strings leave alone. -/
def Unaltered (c : Char) : Prop := c ≠ '\r' ∧ c ≠ '\x00'

instance : DecidablePred Unaltered := fun c => inferInstanceAs (Decidable (c ≠ '\r' ∧ c ≠ '\x00'))

theorem unaltered_of_isNameChar {c : Char} (nameChar : isNameChar c = true) : Unaltered c :=
  ⟨by rintro rfl; exact absurd nameChar (by decide), by rintro rfl; exact absurd nameChar (by decide)⟩

theorem unaltered_of_isName {name : List Char} (valid : isName name = true) : ∀ c ∈ name, Unaltered c := by
  cases name with
  | nil => cases valid
  | cons start more =>
      simp only [isName, Bool.and_eq_true, List.all_eq_true] at valid
      intro c member
      rcases List.mem_cons.mp member with rfl | later
      · exact unaltered_of_isNameChar (isNameChar_of_isNameStartChar valid.1)
      · exact unaltered_of_isNameChar (valid.2 c later)

theorem unaltered_of_valueChar {c : Char} (value : ValueChar c) : Unaltered c :=
  ⟨value.2.1, by rintro rfl; exact absurd value.2.2 (by decide)⟩

theorem unaltered_dumpAttributes (attributes : List (String × String))
    (valid : attributes.all attributeFits = true) :
    ∀ c ∈ attributes.flatMap dumpAttribute, Unaltered c := by
  intro c member
  obtain ⟨⟨⟨name⟩, ⟨value⟩⟩, listed, written⟩ := List.mem_flatMap.mp member
  have both := List.all_eq_true.mp valid _ listed
  simp only [attributeFits, Bool.and_eq_true] at both
  simp only [dumpAttribute, List.mem_cons, List.mem_append, List.not_mem_nil, or_false] at written
  rcases written with ((rfl | inName) | rfl | rfl | inValue) | rfl
  · decide
  · exact unaltered_of_isName both.1.1 c inName
  · decide
  · decide
  · exact unaltered_of_valueChar (escapeAttrValue_valueChar _ both.1.2 c inValue)
  · decide

theorem unaltered_indent (level : Nat) : ∀ c ∈ indent level, Unaltered c := by
  intro c member
  rw [List.eq_of_mem_replicate member]
  decide

mutual
theorem dumpElement_unaltered (level : Nat) :
    ∀ (element : Element), element.writable = true → ∀ c ∈ dumpElement level element, Unaltered c
  | .mk ⟨name⟩ attributes children, writable => by
      simp only [Element.writable, Bool.and_eq_true, decide_eq_true_eq] at writable
      obtain ⟨⟨⟨validName, validAttributes⟩, -⟩, validChildren⟩ := writable
      have nameChars := unaltered_of_isName validName
      have attributeChars := unaltered_dumpAttributes attributes validAttributes
      cases children with
      | nil =>
          simp only [dumpElement, List.forall_mem_cons, List.forall_mem_append, and_assoc]
          exact ⟨by decide, nameChars, attributeChars, by decide⟩
      | cons child more =>
          simp only [dumpElement, List.forall_mem_cons, List.forall_mem_append, and_assoc]
          exact ⟨by decide, nameChars, attributeChars, by decide,
            dumpChildren_unaltered (level + 1) (child :: more) validChildren, by decide,
            unaltered_indent level, by decide, by decide, nameChars, by decide⟩

theorem dumpChildren_unaltered (level : Nat) :
    ∀ (children : List Element), writableChildren children = true →
      ∀ c ∈ dumpChildren level children, Unaltered c
  | [], _ => by simp [dumpChildren]
  | child :: more, writable => by
      simp only [writableChildren, Bool.and_eq_true] at writable
      simp only [dumpChildren, List.forall_mem_cons, List.forall_mem_append, and_assoc]
      exact ⟨by decide, unaltered_indent level, dumpElement_unaltered level child writable.1,
        dumpChildren_unaltered level more writable.2⟩
end

end Ds3.Xml
