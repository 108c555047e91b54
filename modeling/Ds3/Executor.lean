import Ds3.HeaderParser
import Ds3.Signer

/-! # The request executor

`_net_process_request` performs one exchange: it assembles the URL, picks the
method, signs the request path with a fresh date, registers the callbacks, and
runs `curl_easy_perform`.  The transport is outside the client; what it does
in one exchange is an `Environment`: whether a handle could be made, the date
of the call, the HMAC-SHA1/base64 primitive, and for every handle set-up the
header lines, body bytes and result code it produces.  The header callback of
`HeaderParser` runs on the header lines; when it refuses one, libcurl aborts
with `CURLE_WRITE_ERROR` and delivers no body.

The status code and headers the callback collects are freed without being
read: an HTTP error status is not an error of the exchange. -/

set_option autoImplicit false

namespace Ds3.Executor

open Ds3 Ds3.Requests Ds3.Signer Ds3.HeaderParser

/-- Modelled from the spec: `ds3_creds` (declared in a header that is not under
src/); the `_len` fields are `strlen` of the strings. -/
structure Creds where
  accessId : List Char
  secretKey : List Char

/-- Modelled from the spec: `ds3_client` (declared in a header that is not under
src/): endpoint, credentials (a pointer the caller may leave `NULL`), proxy and
redirect limit. -/
structure Client where
  endpoint : List Char
  creds : Option Creds
  proxy : Option (List Char)
  numRedirects : Nat

/-- Modelled from the spec: `ds3_error_code`. -/
inductive ErrorCode where
  | missingArgs
  | curlHandle
  | failedRequest
  | invalidXml
deriving DecidableEq, Repr

/-- Modelled from the spec: `ds3_error`, a code and a message. -/
structure Ds3Error where
  code : ErrorCode
  message : List Char
deriving DecidableEq

/-- Models `_ds3_create_error`. -/
def ds3CreateError (code : ErrorCode) (message : List Char) : Ds3Error := ⟨code, message⟩

/-- Models `ds3_create_creds`: `NULL` when either argument is. -/
def ds3CreateCreds (accessId secretKey : Option (List Char)) : Option Creds :=
  match accessId, secretKey with
  | some accessId, some secretKey => some ⟨accessId, secretKey⟩
  | _, _ => none

/-- Models `ds3_create_client`: `NULL` for a `NULL` endpoint, otherwise five
redirects by default. -/
def ds3CreateClient (endpoint : Option (List Char)) (creds : Option Creds) : Option Client :=
  endpoint.map fun endpoint => ⟨endpoint, creds, none, 5⟩

/-- Models `ds3_client_proxy`. -/
def ds3ClientProxy (client : Client) (proxy : List Char) : Client := { client with proxy := some proxy }

/-! ## The handle and the transport -/

/-- How `_net_process_request` sets the method: libcurl's default `GET`, a
`CURLOPT_CUSTOMREQUEST`, or an upload of `CURLOPT_INFILESIZE` bytes by `POST`
or `PUT`. -/
inductive CurlMethod where
  | get
  | customRequest (method : List Char)
  | upload (post : Bool) (inFileSize : Nat)
deriving DecidableEq

/-- The options `_net_process_request` sets on the handle. -/
structure CurlRequest where
  url : List Char
  maxRedirs : Nat
  proxy : Option (List Char)
  method : CurlMethod
  headers : List (List Char)

/-- What `curl_easy_perform` returns: `CURLE_OK`, or an error with the text
`curl_easy_strerror` gives for it. -/
inductive CurlCode where
  | ok
  | error (text : List Char)

/-- What the transport does in one `curl_easy_perform`. -/
structure Exchange where
  headerLines : List (List Char)
  body : List Char
  result : CurlCode

/-- Everything outside the client that one call depends on. -/
structure Environment where
  handleAvailable : Bool
  date : List Char
  hmacSha1Base64 : List Char → List Char → List Char
  perform : CurlRequest → Exchange

/-- The text of `curl_easy_strerror (CURLE_WRITE_ERROR)`. -/
def curlWriteErrorText : List Char := "Failed writing received data to disk/application".toList

/-- The method `_net_process_request` chooses; `upload` says whether an upload
callback was passed. -/
def curlMethod (verb : HttpVerb) (upload : Bool) (length : Nat) : CurlMethod :=
  match verb with
  | .post => if upload then .upload true length else .customRequest "POST".toList
  | .put => if upload then .upload false length else .customRequest "PUT".toList
  | .delete => .customRequest "DELETE".toList
  | .head => .customRequest "HEAD".toList
  | .get => .get

/-- The handle `_net_process_request` sets up: URL, redirects, proxy, method,
and the `Authorization` and `Date` headers. -/
def setupHandle (env : Environment) (client : Client) (request : Request) (upload : Bool) :
    Outcome CurlRequest :=
  match client.creds with
  | none => .nullDeref
  | some creds => do
      let signature ← netComputeSignature env.hmacSha1Base64 creds.secretKey request.verb
        (some request.path) (some env.date) [] [] []
      pure { url := requestUrl client.endpoint request
             maxRedirs := client.numRedirects
             proxy := client.proxy
             method := curlMethod request.verb upload request.length
             headers := ["Authorization: AWS ".toList ++ creds.accessId ++ ':' :: signature,
               "Date: ".toList ++ env.date] }

/-- Models `_net_process_request`: the error it returns (`none` for `NULL`) and
the bytes the exchange delivered to the body callback.  `reads` says whether
the caller passed both `read_user_struct` and `read_handler_func`: only then is
the callback registered as `CURLOPT_WRITEFUNCTION`, and otherwise libcurl
writes the body to `stdout` and the caller gets none of it. -/
def netProcessRequest (env : Environment) (client : Client) (request : Request) (reads upload : Bool) :
    Outcome (Option Ds3Error × List Char) :=
  if env.handleAvailable then do
    let handle ← setupHandle env client request upload
    let exchange := env.perform handle
    let (taken, _) ← processHeaderLines .zero exchange.headerLines
    let result := if taken then exchange.result else .error curlWriteErrorText
    let body := if taken && reads then exchange.body else []
    match result with
    | .ok => pure (none, body)
    | .error text =>
        pure (some (ds3CreateError .failedRequest ("Request failed: ".toList ++ text)), body)
  else .returns (some (ds3CreateError .curlHandle "Failed to create curl handle".toList), [])

/-- The error of `_internal_request_dispatcher` for a missing argument. -/
def missingArgsError : Ds3Error :=
  ds3CreateError .missingArgs "All arguments must be filled in for request processing".toList

/-- Models `_internal_request_dispatcher`: `MISSING_ARGS` for a `NULL` client or
request, before any network activity. -/
def internalRequestDispatcher (env : Environment) (client : Option Client)
    (request : Option Request) (reads upload : Bool) : Outcome (Option Ds3Error × List Char) :=
  match client, request with
  | some client, some request => netProcessRequest env client request reads upload
  | _, _ => .returns (some missingArgsError, [])

/-! ## What the server reads from the URL -/

/-- Percent-decoding of a URL path: `%XY` with two hexadecimal digits stands for
the byte `XY`. -/
def percentDecode : List Char → List Char
  | '%' :: high :: low :: rest =>
      match hexValue high, hexValue low with
      | some h, some l => Char.ofNat (16 * h + l) :: percentDecode rest
      | _, _ => '%' :: percentDecode (high :: low :: rest)
  | c :: rest => c :: percentDecode rest
  | [] => []

def isPathEnd (c : Char) : Bool := c == '?' || c == '#'

/-- The path a server reads from `url` sent to `endpoint`: the text after the
endpoint up to the first `?` or `#`, percent-decoded. -/
def serverPath (endpoint url : List Char) : List Char :=
  percentDecode ((url.drop endpoint.length).takeWhile fun c => !isPathEnd c)

/-- The query string a server reads: the text after that `?` up to a `#`. -/
def serverQuery (endpoint url : List Char) : Option (List Char) :=
  match (url.drop endpoint.length).dropWhile fun c => !isPathEnd c with
  | '?' :: rest => some (rest.takeWhile (· != '#'))
  | _ => none

/-- A name the URL carries to the server unchanged: no `?`, `#` or `%`. -/
def UrlSafe (name : List Char) : Prop := '?' ∉ name ∧ '#' ∉ name ∧ '%' ∉ name

instance (name : List Char) : Decidable (UrlSafe name) :=
  inferInstanceAs (Decidable ('?' ∉ name ∧ '#' ∉ name ∧ '%' ∉ name))

theorem percentDecode_of_safe : ∀ {path : List Char}, '%' ∉ path → percentDecode path = path
  | [], _ => rfl
  | c :: rest, clean => by
      have head : c ≠ '%' := fun same => clean (same ▸ List.mem_cons_self c rest)
      have tail : '%' ∉ rest := fun member => clean (List.mem_cons_of_mem c member)
      match c, rest, head with
      | c, [], _ => simp [percentDecode]
      | c, [d], head => simp [percentDecode, head, percentDecode_of_safe tail]
      | c, d :: e :: more, head => simp [percentDecode, head, percentDecode_of_safe tail]

theorem takeWhile_notPathEnd {path : List Char} (safe : UrlSafe path) (rest : List Char) :
    (path ++ rest).takeWhile (fun c => !isPathEnd c) =
      path ++ rest.takeWhile (fun c => !isPathEnd c) := by
  induction path with
  | nil => rfl
  | cons c more ih =>
      have keep : (!isPathEnd c) = true := by
        simp only [isPathEnd, Bool.not_or, Bool.and_eq_true, Bool.not_eq_true', beq_eq_false_iff_ne]
        exact ⟨fun same => safe.1 (same ▸ List.mem_cons_self c more),
          fun same => safe.2.1 (same ▸ List.mem_cons_self c more)⟩
      have safeMore : UrlSafe more :=
        ⟨fun m => safe.1 (List.mem_cons_of_mem c m), fun m => safe.2.1 (List.mem_cons_of_mem c m),
          fun m => safe.2.2 (List.mem_cons_of_mem c m)⟩
      simp [List.takeWhile_cons, keep, ih safeMore]

theorem dropWhile_notPathEnd {path : List Char} (safe : UrlSafe path) (rest : List Char) :
    (path ++ rest).dropWhile (fun c => !isPathEnd c) = rest.dropWhile (fun c => !isPathEnd c) := by
  induction path with
  | nil => rfl
  | cons c more ih =>
      have keep : (!isPathEnd c) = true := by
        simp only [isPathEnd, Bool.not_or, Bool.and_eq_true, Bool.not_eq_true', beq_eq_false_iff_ne]
        exact ⟨fun same => safe.1 (same ▸ List.mem_cons_self c more),
          fun same => safe.2.1 (same ▸ List.mem_cons_self c more)⟩
      have safeMore : UrlSafe more :=
        ⟨fun m => safe.1 (List.mem_cons_of_mem c m), fun m => safe.2.1 (List.mem_cons_of_mem c m),
          fun m => safe.2.2 (List.mem_cons_of_mem c m)⟩
      simp [List.dropWhile_cons, keep, ih safeMore]

theorem serverReads_requestUrl (endpoint : List Char) (request : Request) (safe : UrlSafe request.path)
    (noFragment : ∀ query, netGenQueryParams request.queryParams = some query → '#' ∉ query) :
    serverPath endpoint (requestUrl endpoint request) = request.path ∧
      serverQuery endpoint (requestUrl endpoint request) = netGenQueryParams request.queryParams := by
  unfold requestUrl
  cases found : netGenQueryParams request.queryParams with
  | none =>
      have whole := takeWhile_notPathEnd safe []
      have rest := dropWhile_notPathEnd safe []
      simp only [List.append_nil] at whole rest
      simp [serverPath, serverQuery, whole, rest, percentDecode_of_safe safe.2.2]
  | some query =>
      have whole := takeWhile_notPathEnd safe ('?' :: query)
      have rest := dropWhile_notPathEnd safe ('?' :: query)
      have clean := noFragment query found
      have keepAll : query.takeWhile (· != '#') = query :=
        List.takeWhile_eq_self_iff.mpr fun c member => by
          simpa using fun same : c = '#' => clean (same ▸ member)
      simp only [serverPath, serverQuery, List.append_assoc, List.drop_left, whole, rest]
      simp [isPathEnd, keepAll, percentDecode_of_safe safe.2.2]

theorem urlSafe_append {front back : List Char} :
    UrlSafe (front ++ back) ↔ UrlSafe front ∧ UrlSafe back := by
  simp only [UrlSafe, List.mem_append, not_or]
  tauto

theorem netGenQueryParams_single (key value : List Char) :
    netGenQueryParams (HashTable.empty.insert key value) = some (key ++ '=' :: value) := rfl

theorem factoryRequests_safe (bucketName objectName : List Char) (length : Nat)
    (objectList : Option BulkObjectList) (safeBucket : UrlSafe bucketName)
    (safeObject : UrlSafe objectName) :
    ∀ request ∈ factoryRequests bucketName objectName length objectList,
      UrlSafe request.path ∧
        ∀ query, netGenQueryParams request.queryParams = some query → '#' ∉ query := by
  have slash : UrlSafe ['/'] := by decide
  have bucket : UrlSafe (bucketPath bucketName) := urlSafe_append.mpr ⟨slash, safeBucket⟩
  have object : UrlSafe (objectPath bucketName objectName) :=
    urlSafe_append.mpr ⟨bucket, urlSafe_append.mpr ⟨slash, safeObject⟩⟩
  have bulk : UrlSafe ("/_rest_/bucket/".toList ++ bucketName) :=
    urlSafe_append.mpr ⟨by decide, safeBucket⟩
  have noQuery : ∀ query, netGenQueryParams .empty = some query → '#' ∉ query := by
    intro query found; cases found
  intro request member
  simp only [factoryRequests, List.mem_cons, List.mem_nil_iff, or_false] at member
  rcases member with rfl | rfl | rfl | rfl | rfl | rfl | rfl | rfl | rfl
  all_goals first
    | exact ⟨slash, noQuery⟩ | exact ⟨bucket, noQuery⟩ | exact ⟨object, noQuery⟩
    | refine ⟨bulk, ?_⟩
      simp only [ds3InitGetBulk, ds3InitPutBulk, bulkRequest, netGenQueryParams_single,
        Option.some.injEq]
      rintro query rfl
      decide

/-- For bucket and object names without `?`, `#` or `%`, the server reads from
the URL of every factory request the path that `_net_compute_signature` signs,
and the request's query string. -/
theorem factoryRequest_server_reads_signed_path (endpoint bucketName objectName : List Char)
    (length : Nat) (objectList : Option BulkObjectList) (safeBucket : UrlSafe bucketName)
    (safeObject : UrlSafe objectName) :
    ∀ request ∈ factoryRequests bucketName objectName length objectList,
      serverPath endpoint (requestUrl endpoint request) = request.path ∧
        serverQuery endpoint (requestUrl endpoint request) = netGenQueryParams request.queryParams := by
  intro request member
  obtain ⟨safe, noFragment⟩ :=
    factoryRequests_safe bucketName objectName length objectList safeBucket safeObject request member
  exact serverReads_requestUrl endpoint request safe noFragment

theorem factoryRequest_server_reads_signed_path_plain :
    UrlSafe "bucket".toList ∧ UrlSafe "object".toList ∧
      ∀ request ∈ factoryRequests "bucket".toList "object".toList 0 none,
        serverPath "http://host:8080".toList (requestUrl "http://host:8080".toList request) =
            request.path ∧
          serverQuery "http://host:8080".toList (requestUrl "http://host:8080".toList request) =
            netGenQueryParams request.queryParams :=
  ⟨by decide, by decide, factoryRequest_server_reads_signed_path _ _ _ 0 none (by decide) (by decide)⟩

/-- A `?` in a bucket name ends the path the server reads before the path that
was signed ends. -/
theorem serverPath_questionMark_bucket :
    serverPath "http://host".toList (requestUrl "http://host".toList (ds3InitGetBucket "a?b".toList)) ≠
      (ds3InitGetBucket "a?b".toList).path := by
  decide

/-! ## What an exchange reports -/

section Exchange
variable {env : Environment} {client : Client} {request : Request} {upload : Bool}
  {handle : CurlRequest}

end Exchange

end Ds3.Executor
