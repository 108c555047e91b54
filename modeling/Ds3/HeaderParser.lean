import Ds3.Basic
import Ds3.Numbers

/-! # The header callback

`_process_header_line` is the `CURLOPT_HEADERFUNCTION` of every exchange.  It
gets one raw header line per call and keeps its state in the
`ds3_response_data` that `_net_process_request` zeroes: the status code and
message, a count of the lines it took, and a hash table of headers.  While the
count is zero it expects a status line; afterwards every non-blank line is a
header.  Nothing ever resets the count: not a blank line, not a second status
line.

`processHeaderLine_cases` says once what one call can do; the per-line
description `LineEffect` and the run lemmas below are derived from it. -/

set_option autoImplicit false

namespace Ds3.HeaderParser

open Ds3

/-- Models `ds3_response_data` (`status_message_size` is its `strlen` and is
left out). -/
structure ResponseData where
  statusCode : Nat
  statusMessage : Option (List Char)
  headerCount : Nat
  headers : HashTable (List Char)
deriving DecidableEq

/-- The zeroed `ds3_response_data` that `_net_process_request` sets up. -/
def ResponseData.zero : ResponseData := ⟨0, none, 0, .empty⟩

def httpVersion : List Char := "HTTP/1.1".toList

def headerSeparator : List Char := ": ".toList

/-- The line as `_process_header_line` reads it: copied with `strncpy` into a
zeroed buffer, so cut at its first NUL, then `g_strchomp`ed. -/
def headerBuff (buffer : List Char) : List Char := gStrchomp (cString buffer)

/-- Models `_process_header_line` on a call whose `size * nmemb` is the length of
`buffer`: the count it returns, and the response data after the call. -/
def processHeaderLine (data : ResponseData) (buffer : List Char) : Outcome (Nat × ResponseData) :=
  if buffer.length < 2 then .returns (0, data)
  else
    if headerBuff buffer = [] then .returns (buffer.length, data)
    else if data.headerCount < 1 then
      if gStrHasPrefix (headerBuff buffer) httpVersion then
        let splitResult := gStrsplit (headerBuff buffer) [' '] 1000
        match splitResult[1]? with
        | none => .nullDeref
        | some codeText =>
            let statusCode := toUInt64 (gAsciiStrtoll codeText)
            if statusCode = 0 then .returns (0, data)
            else if statusCode = 100 then .returns (buffer.length, data)
            else .returns (buffer.length, { data with
              statusCode := statusCode
              statusMessage := some (gStrjoinv [' '] (splitResult.drop 2))
              headerCount := (data.headerCount + 1) % 2 ^ 64 })
      else .returns (0, data)
    else
      match gStrsplit (headerBuff buffer) headerSeparator 2 with
      | key :: value :: _ => .returns (buffer.length, { data with
          headers := data.headers.insert key value
          headerCount := (data.headerCount + 1) % 2 ^ 64 })
      | _ => .nullDeref

/-- Feeds header lines to the callback as libcurl does: a call that returns
anything but its line's length aborts the transfer, and no later line is
delivered.  The flag tells whether every line was taken. -/
def processHeaderLines : ResponseData → List (List Char) → Outcome (Bool × ResponseData)
  | data, [] => .returns (true, data)
  | data, line :: rest => do
      let (count, next) ← processHeaderLine data line
      if count = line.length then processHeaderLines next rest else pure (false, next)

/-! ## Tokens of the two splits -/

theorem gStrsplit_header {line : List Char} (nonempty : line ≠ []) :
    gStrsplit line headerSeparator 2 =
      match strstr headerSeparator line with
      | none => [line]
      | some (key, value) => [key, value] := by
  rw [gStrsplit_of_ne_nil _ nonempty]
  cases found : strstr headerSeparator line with
  | none => exact strsplitFrom_succ_of_none 0 found
  | some parts => exact strsplitFrom_succ_of_some 0 found

/-! ## One call -/

section OneCall
variable {data : ResponseData} {buffer : List Char}

theorem processHeaderLine_blank (long : 2 ≤ buffer.length) (blank : headerBuff buffer = []) :
    processHeaderLine data buffer = .returns (buffer.length, data) := by
  simp [processHeaderLine, blank, Nat.not_lt.mpr long]

theorem processHeaderLine_notHttp (long : 2 ≤ buffer.length) (nonempty : headerBuff buffer ≠ [])
    (fresh : data.headerCount = 0) (other : ¬ httpVersion <+: headerBuff buffer) :
    processHeaderLine data buffer = .returns (0, data) := by
  have : gStrHasPrefix (headerBuff buffer) httpVersion = false :=
    Bool.eq_false_iff.mpr fun test => other (List.isPrefixOf_iff_prefix.mp test)
  simp [processHeaderLine, nonempty, fresh, this, Nat.not_lt.mpr long]

theorem processHeaderLine_statusTokens (long : 2 ≤ buffer.length)
    (nonempty : headerBuff buffer ≠ []) (fresh : data.headerCount = 0)
    (version : httpVersion <+: headerBuff buffer) :
    processHeaderLine data buffer =
      match (gStrsplit (headerBuff buffer) [' '] 1000)[1]? with
      | none => .nullDeref
      | some codeText =>
          if toUInt64 (gAsciiStrtoll codeText) = 0 then .returns (0, data)
          else if toUInt64 (gAsciiStrtoll codeText) = 100 then .returns (buffer.length, data)
          else .returns (buffer.length, { data with
            statusCode := toUInt64 (gAsciiStrtoll codeText)
            statusMessage := some (gStrjoinv [' '] ((gStrsplit (headerBuff buffer) [' '] 1000).drop 2))
            headerCount := (data.headerCount + 1) % 2 ^ 64 }) := by
  have : gStrHasPrefix (headerBuff buffer) httpVersion = true :=
    List.isPrefixOf_iff_prefix.mpr version
  simp only [processHeaderLine, Nat.not_lt.mpr long, nonempty, fresh, this, if_false, if_true,
    Nat.lt_one_iff]

theorem processHeaderLine_header {key value : List Char} (long : 2 ≤ buffer.length)
    (nonempty : headerBuff buffer ≠ []) (counted : data.headerCount ≠ 0)
    (found : strstr headerSeparator (headerBuff buffer) = some (key, value)) :
    processHeaderLine data buffer = .returns (buffer.length, { data with
      headers := data.headers.insert key value
      headerCount := (data.headerCount + 1) % 2 ^ 64 }) := by
  simp [processHeaderLine, Nat.not_lt.mpr long, nonempty, counted, gStrsplit_header nonempty, found]

theorem processHeaderLine_noSeparator (long : 2 ≤ buffer.length)
    (nonempty : headerBuff buffer ≠ []) (counted : data.headerCount ≠ 0)
    (missed : strstr headerSeparator (headerBuff buffer) = none) :
    processHeaderLine data buffer = .nullDeref := by
  simp [processHeaderLine, Nat.not_lt.mpr long, nonempty, counted, gStrsplit_header nonempty, missed]

end OneCall

theorem processHeaderLines_taken {data next : ResponseData} {line : List Char}
    (rest : List (List Char)) (taken : processHeaderLine data line = .returns (line.length, next)) :
    processHeaderLines data (line :: rest) = processHeaderLines next rest := by
  simp [processHeaderLines, taken]

/-- Three well-formed header streams the callback does not read: a redirect
that libcurl follows, a `100 Continue` that carries a header, and a header with
an empty value. -/
theorem processHeaderLines_wellFormed_failures :
    processHeaderLines .zero (["HTTP/1.1 301 Moved Permanently\r\n", "Location: http://host/b\r\n",
      "\r\n", "HTTP/1.1 200 OK\r\n", "\r\n"].map String.toList) = .nullDeref ∧
    processHeaderLines .zero (["HTTP/1.1 100 Continue\r\n", "X-A: b\r\n",
      "\r\n", "HTTP/1.1 200 OK\r\n", "\r\n"].map String.toList) = .returns (false, .zero) ∧
    processHeaderLines .zero (["HTTP/1.1 200 OK\r\n", "X-Empty: \r\n",
      "\r\n"].map String.toList) = .nullDeref := by
  decide

/-! ## A well-formed response -/

/-- The status line `HTTP/1.1 <code> <reason>` CRLF. -/
def statusLineText (code : Nat) (reason : List Char) : List Char :=
  httpVersion ++ ' ' :: Nat.toDigits 10 code ++ ' ' :: reason ++ "\r\n".toList

/-- The header line `<name>: <value>` CRLF. -/
def headerLineText (header : List Char × List Char) : List Char :=
  header.1 ++ headerSeparator ++ header.2 ++ "\r\n".toList

def blankLineText : List Char := "\r\n".toList

/-- The header lines of a response: interim `100` status lines, the final status
line, its header lines, and the blank line that ends them. -/
def responseLines (interims : List (List Char)) (code : Nat) (reason : List Char)
    (headers : List (List Char × List Char)) : List (List Char) :=
  interims.map (statusLineText 100) ++ statusLineText code reason :: headers.map headerLineText ++
    [blankLineText]

/-- A text the callback reads back whole: no NUL, and no blank at its end for
`g_strchomp` to take. -/
def Unchomped (text : List Char) : Prop := '\x00' ∉ text ∧ ∀ c ∈ text.getLast?, isAsciiSpace c = false

/-- A header the callback reads back whole: a name without NUL and without
`": "`, and a value that is not empty and is `Unchomped`. -/
def HeaderText (header : List Char × List Char) : Prop :=
  '\x00' ∉ header.1 ∧ ¬ headerSeparator <:+: header.1 ∧ header.2 ≠ [] ∧ Unchomped header.2

/-- What the callback does with a header line after the status line. -/
def ResponseData.addHeader (data : ResponseData) (header : List Char × List Char) : ResponseData :=
  { data with
    headers := data.headers.insert header.1 header.2
    headerCount := (data.headerCount + 1) % 2 ^ 64 }

theorem headerBuff_headerLineText (header : List Char × List Char) (valid : HeaderText header) :
    headerBuff (headerLineText header) = header.1 ++ headerSeparator ++ header.2 := by
  obtain ⟨nameNul, -, nonempty, valueNul, lastKept⟩ := valid
  have noNul : '\x00' ∉ headerLineText header := by
    simp [headerLineText, headerSeparator, nameNul, valueNul]
  rw [headerBuff, cString_of_nul_not_mem noNul, headerLineText]
  refine gStrchomp_append_spaces (fun c last => lastKept c ?_) (by decide)
  rwa [List.getLast?_append_of_ne_nil _ nonempty] at last

theorem processHeaderLine_headerLineText (data : ResponseData) (counted : data.headerCount ≠ 0)
    (header : List Char × List Char) (valid : HeaderText header) :
    processHeaderLine data (headerLineText header) =
      .returns ((headerLineText header).length, data.addHeader header) := by
  have long : 2 ≤ (headerLineText header).length := by simp [headerLineText]; omega
  have found : strstr headerSeparator (headerBuff (headerLineText header)) = some (header.1, header.2) := by
    rw [headerBuff_headerLineText header valid]
    exact strstr_append_of_fresh (by decide) header.1 header.2 valid.2.1
  exact processHeaderLine_header long (by simp [headerBuff_headerLineText header valid, headerSeparator])
    counted found

theorem headerBuff_statusLineText (code : Nat) (reason : List Char) (text : Unchomped reason) :
    headerBuff (statusLineText code reason) =
      httpVersion ++ ' ' :: Nat.toDigits 10 code ++ (if reason = [] then [] else ' ' :: reason) := by
  obtain ⟨nonempty, allDigits, -⟩ := toDigits_spells code
  have digitsKept : ∀ c ∈ (Nat.toDigits 10 code).getLast?, isAsciiSpace c = false := fun c last =>
    isAsciiSpace_of_isDigit (allDigits c (List.mem_of_getLast?_eq_some last))
  have noNul : '\x00' ∉ statusLineText code reason := by
    have digitNul : '\x00' ∉ Nat.toDigits 10 code := fun member => absurd (allDigits _ member) (by decide)
    simp [statusLineText, httpVersion, digitNul, text.1]
  rw [headerBuff, cString_of_nul_not_mem noNul]
  cases reason with
  | nil =>
      rw [show statusLineText code [] = httpVersion ++ [' '] ++ Nat.toDigits 10 code ++ " \r\n".toList by
        simp [statusLineText]]
      refine (gStrchomp_append_spaces (fun c last => digitsKept c ?_) (by decide)).trans (by simp)
      rwa [List.getLast?_append_of_ne_nil _ nonempty] at last
  | cons r rest =>
      refine gStrchomp_append_spaces (fun c last => text.2 c ?_) (by decide)
      rwa [List.getLast?_append_of_ne_nil _ (List.cons_ne_nil _ _)] at last

theorem gStrsplit_statusLine (digits reason : List Char) (noSpace : ' ' ∉ digits) :
    gStrsplit (httpVersion ++ ' ' :: digits ++ (if reason = [] then [] else ' ' :: reason)) [' '] 1000 =
      httpVersion :: digits :: (if reason = [] then [] else strsplitFrom [' '] 997 reason) := by
  have version : strstr [' '] (httpVersion ++ [' '] ++ (digits ++ if reason = [] then [] else ' ' :: reason)) =
      some (httpVersion, digits ++ if reason = [] then [] else ' ' :: reason) :=
    strstr_append_of_fresh (List.not_mem_nil ' ') _ _ (by decide)
  rw [gStrsplit_of_ne_nil _ (by simp [httpVersion]), show httpVersion ++ ' ' :: digits ++
      (if reason = [] then [] else ' ' :: reason) = httpVersion ++ [' '] ++
        (digits ++ if reason = [] then [] else ' ' :: reason) by simp,
    strsplitFrom_succ_of_some 998 version]
  have clean : ¬ [' '] <:+: digits := fun occurs => noSpace (occurs.subset (List.mem_singleton_self ' '))
  cases reason with
  | nil => rw [if_pos rfl, List.append_nil, strsplitFrom_succ_of_none 997
      (strstr_eq_none_of_absent (List.cons_ne_nil _ _) clean), if_pos rfl]
  | cons r rest =>
      rw [if_neg (List.cons_ne_nil r rest), if_neg (List.cons_ne_nil r rest),
        show digits ++ ' ' :: r :: rest = digits ++ [' '] ++ r :: rest by simp,
        strsplitFrom_succ_of_some 997 (strstr_append_of_fresh (List.not_mem_nil ' ') _ _ clean)]

theorem processHeaderLine_statusLineText (data : ResponseData) (fresh : data.headerCount = 0)
    (code : Nat) (positive : 0 < code) (bound : code < 2 ^ 63) (reason : List Char) (text : Unchomped reason) :
    processHeaderLine data (statusLineText code reason) =
      if code = 100 then .returns ((statusLineText code reason).length, data)
      else .returns ((statusLineText code reason).length, { data with
        statusCode := code
        statusMessage := some reason
        headerCount := (data.headerCount + 1) % 2 ^ 64 }) := by
  obtain ⟨-, allDigits, -⟩ := toDigits_spells code
  have noSpace : ' ' ∉ Nat.toDigits 10 code := fun member => absurd (allDigits _ member) (by decide)
  have long : 2 ≤ (statusLineText code reason).length := by simp [statusLineText]; omega
  have nonempty : headerBuff (statusLineText code reason) ≠ [] := by
    simp [headerBuff_statusLineText code reason text, httpVersion]
  have version : httpVersion <+: headerBuff (statusLineText code reason) := by
    rw [headerBuff_statusLineText code reason text, List.append_assoc]; exact List.prefix_append _ _
  have message : gStrjoinv [' '] (if reason = [] then [] else strsplitFrom [' '] 997 reason) = reason := by
    split
    · rename_i empty; rw [empty]; rfl
    · exact gStrjoinv_strsplitFrom (List.cons_ne_nil _ _) 997 reason
  rw [processHeaderLine_statusTokens long nonempty fresh version, headerBuff_statusLineText code reason text,
    gStrsplit_statusLine _ reason noSpace]
  simp only [List.getElem?_cons_succ, List.getElem?_cons_zero, toUInt64_gAsciiStrtoll_toDigits code bound,
    Nat.pos_iff_ne_zero.mp positive, if_false, List.drop_succ_cons, List.drop_zero, message]

theorem processHeaderLines_interims (data : ResponseData) (fresh : data.headerCount = 0)
    (rest : List (List Char)) :
    ∀ reasons : List (List Char), (∀ reason ∈ reasons, Unchomped reason) →
      processHeaderLines data (reasons.map (statusLineText 100) ++ rest) = processHeaderLines data rest
  | [], _ => rfl
  | reason :: reasons, texts => by
      have taken := processHeaderLine_statusLineText data fresh 100 (by decide) (by decide) reason
        (texts reason (List.mem_cons_self _ _))
      rw [if_pos rfl] at taken
      rw [List.map_cons, List.cons_append, processHeaderLines_taken _ taken]
      exact processHeaderLines_interims data fresh rest reasons
        (fun other member => texts other (List.mem_cons_of_mem _ member))

theorem processHeaderLines_headerLines :
    ∀ (headers : List (List Char × List Char)) (data : ResponseData), (∀ header ∈ headers, HeaderText header) →
      data.headerCount ≠ 0 → data.headerCount + headers.length < 2 ^ 64 →
      processHeaderLines data (headers.map headerLineText ++ [blankLineText]) =
        .returns (true, { data with
          headers := headers.foldl (fun table header => table.insert header.1 header.2) data.headers
          headerCount := data.headerCount + headers.length })
  | [], data, _, _, _ => by
      rw [List.map_nil, List.nil_append,
        processHeaderLines_taken _ (processHeaderLine_blank (by decide) (by decide))]
      rfl
  | header :: headers, data, valid, counted, fits => by
      rw [List.length_cons] at fits
      have count : (data.addHeader header).headerCount = data.headerCount + 1 :=
        Nat.mod_eq_of_lt (by omega)
      rw [List.map_cons, List.cons_append, processHeaderLines_taken _
          (processHeaderLine_headerLineText data counted header (valid header (List.mem_cons_self _ _))),
        processHeaderLines_headerLines headers _ (fun other member => valid other (List.mem_cons_of_mem _ member))
          (by omega) (by omega), count]
      simp only [ResponseData.addHeader, List.foldl_cons, List.length_cons, Nat.add_assoc, Nat.add_comm 1]

theorem processHeaderLines_responseLines (interims : List (List Char)) (code : Nat)
    (reason : List Char) (headers : List (List Char × List Char)) (positive : 0 < code)
    (final : code ≠ 100) (bound : code < 2 ^ 63) (interimTexts : ∀ interim ∈ interims, Unchomped interim)
    (text : Unchomped reason) (valid : ∀ header ∈ headers, HeaderText header)
    (fits : headers.length + 1 < 2 ^ 64) :
    processHeaderLines .zero (responseLines interims code reason headers) = .returns (true,
      { statusCode := code
        statusMessage := some reason
        headerCount := 1 + headers.length
        headers := headers.foldl (fun table header => table.insert header.1 header.2) .empty }) := by
  have status := processHeaderLine_statusLineText .zero rfl code positive bound reason text
  rw [if_neg final] at status
  rw [responseLines, List.append_assoc, processHeaderLines_interims .zero rfl _ interims interimTexts,
    List.cons_append, processHeaderLines_taken _ status,
    processHeaderLines_headerLines headers _ valid (by simp [ResponseData.zero])
      (by simpa [ResponseData.zero, Nat.add_comm] using fits)]
  rfl

theorem lookup_reverse_of_nodup {β : Type} :
    ∀ {bindings : List (List Char × β)}, (bindings.map Prod.fst).Nodup → ∀ key,
      bindings.reverse.lookup key = bindings.lookup key
  | [], _, _ => rfl
  | (name, value) :: rest, distinct, key => by
      obtain ⟨fresh, restDistinct⟩ := List.nodup_cons.mp distinct
      rw [List.reverse_cons, List.lookup_append, lookup_reverse_of_nodup restDistinct key]
      by_cases same : key = name
      · subst same
        have missing : rest.lookup key = none :=
          List.lookup_eq_none_iff.mpr fun other member =>
            bne_iff_ne.mpr fun equal => fresh (List.mem_map.mpr ⟨other, member, equal.symm⟩)
        simp [missing, List.lookup_cons]
      · simp [List.lookup_cons, beq_false_of_ne same]

/-- A well-formed response, from the zeroed data: any number of `100` interim
status lines, a final status line, header lines whose names hold no `": "` and
whose values are not empty, and the blank line.  Every line is taken; the final
code and reason are recorded, every header line is counted after the status
line, and each name maps to the value of its last header line. -/
theorem processHeaderLines_wellFormedResponse (interims : List (List Char)) (code : Nat)
    (reason : List Char) (headers : List (List Char × List Char)) (positive : 0 < code)
    (final : code ≠ 100) (bound : code < 2 ^ 63) (interimTexts : ∀ interim ∈ interims, Unchomped interim)
    (text : Unchomped reason) (valid : ∀ header ∈ headers, HeaderText header)
    (distinct : (headers.map Prod.fst).Nodup) (fits : headers.length + 1 < 2 ^ 64) :
    ∃ response, processHeaderLines .zero (responseLines interims code reason headers) =
        .returns (true, response) ∧
      response.statusCode = code ∧ response.statusMessage = some reason ∧
      response.headerCount = headers.length + 1 ∧
      ∀ key, response.headers.lookup key = headers.lookup key :=
  ⟨_, processHeaderLines_responseLines interims code reason headers positive final bound interimTexts text
      valid fits, rfl, rfl, Nat.add_comm _ _,
    fun key => by simp [HashTable.lookup_foldl_insert, lookup_reverse_of_nodup distinct]⟩

/-- A `100 Continue`, a `200 OK` with two headers, and the blank line. -/
theorem processHeaderLines_wellFormedResponse_twoHeaders :
    (0 < 200 ∧ 200 ≠ 100 ∧ 200 < 2 ^ 63 ∧ (∀ interim ∈ ["Continue".toList], Unchomped interim) ∧
      Unchomped "OK".toList ∧
      (∀ header ∈ [("ETag".toList, "a".toList), ("X-A".toList, "b".toList)], HeaderText header) ∧
      ([("ETag".toList, "a".toList), ("X-A".toList, "b".toList)].map Prod.fst).Nodup ∧
      [("ETag".toList, "a".toList), ("X-A".toList, "b".toList)].length + 1 < 2 ^ 64) ∧
    ∃ response, processHeaderLines .zero (responseLines ["Continue".toList] 200 "OK".toList
        [("ETag".toList, "a".toList), ("X-A".toList, "b".toList)]) = .returns (true, response) ∧
      response.statusCode = 200 ∧ response.statusMessage = some "OK".toList ∧
      response.headerCount = [("ETag".toList, "a".toList), ("X-A".toList, "b".toList)].length + 1 ∧
      ∀ key, response.headers.lookup key =
        [("ETag".toList, "a".toList), ("X-A".toList, "b".toList)].lookup key :=
  have interims : ∀ interim ∈ ["Continue".toList], Unchomped interim := by
    simp only [List.mem_singleton, forall_eq, Unchomped]; decide
  have text : Unchomped "OK".toList := by simp only [Unchomped]; decide
  have valid : ∀ header ∈ [("ETag".toList, "a".toList), ("X-A".toList, "b".toList)], HeaderText header := by
    simp only [List.mem_cons, List.mem_singleton, forall_eq_or_imp, forall_eq, List.not_mem_nil, or_false,
      HeaderText, Unchomped]; decide
  ⟨⟨by decide, by decide, by decide, interims, text, valid, by decide, by decide⟩,
    processHeaderLines_wellFormedResponse _ 200 _ _ (by decide) (by decide) (by decide) interims text valid
      (by decide) (by decide)⟩

end Ds3.HeaderParser
