import Ds3.Basic
import Ds3.Numbers
import Ds3.Requests

/-! # The canonical signer

`_generate_signature_str` lays out the string that is signed:

    VERB \n Content-MD5 \n Content-Type \n Date \n CanonicalizedAmzHeaders Resource

and `_net_compute_signature` signs it with HMAC-SHA1 under the secret key and
encodes the digest in base64.  The hash and the encoding are GLib's
(`g_hmac_*`, `g_base64_encode`); the model takes their composite as a
parameter `hmacSha1Base64 key message`.

`_net_process_request` signs with empty Content-MD5, Content-Type and headers,
so the string is `VERB\n\n\nDATE\nRESOURCE`.  No verb name and no date that
`_generate_date_string` writes holds a line feed, so the string determines the
verb, the date and the resource, whatever the resource holds
(`generateSignatureStr_injective`, `newline_not_mem_generateDateString`). -/

set_option autoImplicit false

namespace Ds3.Signer

open Ds3 Ds3.Requests

/-- Models `_net_get_verb`. -/
def netGetVerb : HttpVerb → List Char
  | .get => "GET".toList
  | .put => "PUT".toList
  | .post => "POST".toList
  | .delete => "DELETE".toList
  | .head => "HEAD".toList

/-- Models `_generate_signature_str`: `NULL` when the resource or the date is
missing. -/
def generateSignatureStr (verb : HttpVerb) (resourceName date : Option (List Char))
    (contentType md5 amzHeaders : List Char) : Option (List Char) :=
  match resourceName, date with
  | some resourceName, some date =>
      some (netGetVerb verb ++ '\n' :: md5 ++ '\n' :: contentType ++ '\n' :: date ++ '\n' ::
        amzHeaders ++ resourceName)
  | _, _ => none

/-- Models `_net_compute_signature`: the signing string, read as a C string by
`g_hmac_update (hmac, signature_str, -1)`, signed under the secret key.  A
`NULL` signing string is refused by the `g_return_if_fail` of
`g_hmac_update`, so the digest is that of no data. -/
def netComputeSignature (hmacSha1Base64 : List Char → List Char → List Char)
    (secretKey : List Char) (verb : HttpVerb) (resourceName date : Option (List Char))
    (contentType md5 amzHeaders : List Char) : Outcome (List Char) :=
  match generateSignatureStr verb resourceName date contentType md5 amzHeaders with
  | some signatureStr => .returns (hmacSha1Base64 secretKey (cString signatureStr))
  | none => .returns (hmacSha1Base64 secretKey [])

/-! ## The date -/

/-- The fields of the time `g_date_time_new_now_local` returns that the date
format reads, in GLib's ranges; the day of the week counts from Monday and the
offset from UTC is in minutes. -/
structure LocalTime where
  dayOfWeek : Fin 7
  day : Nat
  month : Fin 12
  year : Nat
  hour : Fin 24
  minute : Fin 60
  second : Fin 60
  utcOffset : Int
  day_valid : 1 ≤ day ∧ day ≤ 31
  year_valid : 1 ≤ year ∧ year ≤ 9999
  utcOffset_valid : utcOffset.natAbs < 24 * 60

/-- `%a` in the C locale. -/
def weekdayName (day : Fin 7) : List Char :=
  (["Mon", "Tue", "Wed", "Thu", "Fri", "Sat", "Sun"].getD day.val "").toList

/-- `%b` in the C locale. -/
def monthName (month : Fin 12) : List Char :=
  (["Jan", "Feb", "Mar", "Apr", "May", "Jun", "Jul", "Aug", "Sep", "Oct", "Nov", "Dec"].getD
    month.val "").toList

/-- A number in two digits at least, padded with `0`, as `%d`, `%H`, `%M` and
`%S` write it. -/
def twoDigits (n : Nat) : List Char := if n < 10 then '0' :: Nat.toDigits 10 n else Nat.toDigits 10 n

/-- `%z`: the sign of the offset from UTC, then its hours and minutes. -/
def utcOffsetText (offset : Int) : List Char :=
  (if 0 ≤ offset then '+' else '-') :: twoDigits (offset.natAbs / 60) ++ twoDigits (offset.natAbs % 60)

/-- Models `_generate_date_string`: `g_date_time_format (time, "%a, %d %b %Y %T %z")`
on the local time, in the C locale. -/
def generateDateString (now : LocalTime) : List Char :=
  weekdayName now.dayOfWeek ++ ',' :: ' ' :: twoDigits now.day ++ ' ' :: monthName now.month ++
    ' ' :: Nat.toDigits 10 now.year ++ ' ' :: twoDigits now.hour ++ ':' :: twoDigits now.minute ++
      ':' :: twoDigits now.second ++ ' ' :: utcOffsetText now.utcOffset

theorem newline_not_mem_toDigits (n : Nat) : '\n' ∉ Nat.toDigits 10 n :=
  fun member => absurd ((toDigits_spells n).2.1 _ member) (by decide)

theorem newline_not_mem_twoDigits (n : Nat) : '\n' ∉ twoDigits n := by
  unfold twoDigits
  split
  · exact List.not_mem_cons_of_ne_of_not_mem (by decide) (newline_not_mem_toDigits n)
  · exact newline_not_mem_toDigits n

theorem newline_not_mem_generateDateString (now : LocalTime) : '\n' ∉ generateDateString now := by
  have weekday : ∀ day : Fin 7, '\n' ∉ weekdayName day := by decide
  have month : ∀ month : Fin 12, '\n' ∉ monthName month := by decide
  have sign : '\n' ≠ if 0 ≤ now.utcOffset then '+' else '-' := by split <;> decide
  simp [generateDateString, utcOffsetText, weekday, month, sign, newline_not_mem_twoDigits,
    newline_not_mem_toDigits]

/-! ## The signing string determines what is signed -/

theorem newline_not_mem_netGetVerb (verb : HttpVerb) : '\n' ∉ netGetVerb verb := by
  cases verb <;> decide

theorem netGetVerb_injective {verb₁ verb₂ : HttpVerb} (same : netGetVerb verb₁ = netGetVerb verb₂) :
    verb₁ = verb₂ := by
  cases verb₁ <;> cases verb₂ <;> first | rfl | exact absurd same (by decide)

/-- The signing string of two requests is the same only for the same verb, date
and resource, when the dates hold no line feed: the verb and the date are read
off up to their line feeds, and the resource is the rest. -/
theorem generateSignatureStr_injective (verb₁ verb₂ : HttpVerb) (resource₁ resource₂ date₁ date₂ : List Char)
    (dateLine₁ : '\n' ∉ date₁) (dateLine₂ : '\n' ∉ date₂)
    (same : generateSignatureStr verb₁ (some resource₁) (some date₁) [] [] [] =
      generateSignatureStr verb₂ (some resource₂) (some date₂) [] [] []) :
    verb₁ = verb₂ ∧ date₁ = date₂ ∧ resource₁ = resource₂ := by
  simp only [generateSignatureStr, Option.some.injEq, List.append_assoc, List.cons_append,
    List.nil_append] at same
  obtain ⟨verbs, afterVerb⟩ :=
    append_cons_cancel (newline_not_mem_netGetVerb verb₁) (newline_not_mem_netGetVerb verb₂) same
  obtain ⟨dates, resources⟩ :=
    append_cons_cancel dateLine₁ dateLine₂ (List.cons.inj (List.cons.inj afterVerb).2).2
  exact ⟨netGetVerb_injective verbs, dates, resources⟩

/-- The time of the sample exchanges: Thursday 1 January 2015, midnight, UTC. -/
def newYear2015 : LocalTime := ⟨3, 1, 0, 2015, 0, 0, 0, 0, by decide, by decide, by decide⟩

theorem generateSignatureStr_injective_at_newYear :
    '\n' ∉ generateDateString newYear2015 ∧
      (HttpVerb.get = HttpVerb.get ∧ generateDateString newYear2015 = generateDateString newYear2015 ∧
        "/bucket/a\nb".toList = "/bucket/a\nb".toList) :=
  ⟨by decide, generateSignatureStr_injective .get .get "/bucket/a\nb".toList "/bucket/a\nb".toList
    (generateDateString newYear2015) (generateDateString newYear2015) (by decide) (by decide) rfl⟩

end Ds3.Signer
