import Ds3.Bulk
import Ds3.Xml.Listings

/-! # The operations

Every `ds3_*` operation runs one exchange: through `_internal_request_dispatcher`,
or for `ds3_bulk` through `_net_process_request` after checks of its own.  The
three that read a document then decode the body the exchange delivered.

`ds3_get_object`, `ds3_put_object`, `ds3_delete_object`, `ds3_put_bucket` and
`ds3_delete_bucket` return what the dispatcher returns, and `ds3_bulk` returns
the exchange's error before it reads anything (`ds3Bulk_request_failed`,
`ds3Bulk_ok`).  `ds3_get_service` and `ds3_get_bucket` drop the dispatcher's
result and parse whatever body it left: for a `NULL` client the body is empty
and the error is `INVALID_XML`, not `MISSING_ARGS`, and after a failed transfer
a body that arrived is decoded and returned as a result
(`ds3GetService_misreports_failures`). -/

set_option autoImplicit false

namespace Ds3.Operations

open Ds3 Ds3.Requests Ds3.Xml Ds3.Executor Ds3.Response Ds3.Bulk

/-- Models `ds3_get_service`. -/
def ds3GetService (env : Environment) (client : Option Client) (request : Option Request) :
    Outcome (Except Ds3Error GetServiceResponse) := do
  let (_, body) ← internalRequestDispatcher env client request true false
  getServiceResponse body

/-- Models `ds3_get_bucket`. -/
def ds3GetBucket (env : Environment) (client : Option Client) (request : Option Request) :
    Outcome (Except Ds3Error GetBucketResponse) := do
  let (_, body) ← internalRequestDispatcher env client request true false
  getBucketResponse body

/-- Models `ds3_get_object`: the error, and the body handed to the caller's
callback; `reads` says whether the caller passed data and a callback. -/
def ds3GetObject (env : Environment) (client : Option Client) (request : Option Request) (reads : Bool) :
    Outcome (Option Ds3Error × List Char) :=
  internalRequestDispatcher env client request reads false

/-- Models `ds3_put_object`; `upload` says whether the caller passed data and a
callback to read it from. -/
def ds3PutObject (env : Environment) (client : Option Client) (request : Option Request)
    (upload : Bool) : Outcome (Option Ds3Error) :=
  Prod.fst <$> internalRequestDispatcher env client request false upload

/-- The operations that send a request with no body and read none:
`_internal_request_dispatcher (client, request, NULL, NULL, NULL, NULL)`. -/
def requestOnly (env : Environment) (client : Option Client) (request : Option Request) :
    Outcome (Option Ds3Error) :=
  Prod.fst <$> internalRequestDispatcher env client request false false

/-- Models `ds3_delete_object`. -/
def ds3DeleteObject (env : Environment) (client : Option Client) (request : Option Request) :
    Outcome (Option Ds3Error) :=
  requestOnly env client request

/-- Models `ds3_put_bucket`. -/
def ds3PutBucket (env : Environment) (client : Option Client) (request : Option Request) :
    Outcome (Option Ds3Error) :=
  requestOnly env client request

/-- Models `ds3_delete_bucket`. -/
def ds3DeleteBucket (env : Environment) (client : Option Client) (request : Option Request) :
    Outcome (Option Ds3Error) :=
  requestOnly env client request

/-- The error `ds3_bulk` returns for a request without objects. -/
def bulkListError : Ds3Error :=
  ds3CreateError .missingArgs "The bulk command requires a list of objects to process".toList

/-- Models `ds3_bulk`: the checks, the manifest and its length, the exchange with
the manifest as upload, and the decoding of the response. -/
def ds3Bulk (env : Environment) (client : Option Client) (request : Option Request) :
    Outcome (Except Ds3Error BulkResponse) :=
  match client, request with
  | some client, some request =>
      match request.objectList with
      | none => pure (.error bulkListError)
      | some objectList =>
          if objectList.list = [] then pure (.error bulkListError)
          else do
            let (error, body) ← netProcessRequest env client
              { request with length := (bulkSendBuff objectList.list).size } true true
            match error with
            | some error => pure (.error error)
            | none => pure (bulkResponse body)
  | _, _ => pure (.error missingArgsError)

/-! ## What the operations return when the exchange fails -/

theorem ds3Bulk_request_failed (env : Environment) (client : Client) (request : Request)
    (objectList : BulkObjectList) (listed : request.objectList = some objectList)
    (nonempty : objectList.list ≠ []) (error : Ds3Error) (body : List Char)
    (failed : netProcessRequest env client
      { request with length := (bulkSendBuff objectList.list).size } true true = .returns (some error, body)) :
    ds3Bulk env (some client) (some request) = .returns (.error error) := by
  simp only [listed] at failed
  simp [ds3Bulk, listed, nonempty, failed]

theorem ds3Bulk_ok (env : Environment) (client : Option Client) (request : Option Request)
    (response : BulkResponse) (ok : ds3Bulk env client request = .returns (.ok response)) :
    ∃ client' request' objectList body, client = some client' ∧ request = some request' ∧
      request'.objectList = some objectList ∧
      netProcessRequest env client' { request' with length := (bulkSendBuff objectList.list).size } true true =
        .returns (none, body) ∧ bulkResponse body = .ok response := by
  match client, request, ok with
  | some client', some request', ok =>
      simp only [ds3Bulk] at ok
      split at ok
      · cases ok
      · rename_i objectList listed
        split at ok
        · cases ok
        · obtain ⟨⟨error, body⟩, exchanged, decoded⟩ := Outcome.bind_eq_returns ok
          cases error with
          | some error => cases decoded
          | none => exact ⟨client', request', objectList, body, rfl, rfl, listed, exchanged,
              Outcome.returns.inj decoded⟩
  | none, _, ok => cases ok
  | some _, none, ok => cases ok

/-- An exchange that delivers a complete, empty service listing and then fails,
as when the connection times out before libcurl finishes the transfer. -/
def timeoutEnvironment : Environment where
  handleAvailable := true
  date := "Thu, 01 Jan 2015 00:00:00 GMT".toList
  hmacSha1Base64 := fun _ _ => "c2lnbmF0dXJl".toList
  perform := fun _ =>
    ⟨["HTTP/1.1 200 OK\r\n".toList, "Content-Type: application/xml\r\n".toList, "\r\n".toList],
      "<ListAllMyBucketsResult/>".toList, .error "Timeout was reached".toList⟩

/-- A client with credentials for `http://host:8080`. -/
def plainClient : Client := ⟨"http://host:8080".toList, some ⟨"id".toList, "key".toList⟩, none, 5⟩

/-- With a `NULL` client the dispatcher fails with `MISSING_ARGS` and
`ds3_get_service` returns `INVALID_XML`; when the transfer fails after the body
arrived, the dispatcher fails with `FAILED_REQUEST` and `ds3_get_service` returns
the decoded listing with no error. -/
theorem ds3GetService_misreports_failures :
    internalRequestDispatcher timeoutEnvironment none (some ds3InitGetService) true false =
        .returns (some missingArgsError, []) ∧
      ds3GetService timeoutEnvironment none (some ds3InitGetService) =
        .returns (.error (parseFailedError [])) ∧
      (parseFailedError []).code = .invalidXml ∧
      internalRequestDispatcher timeoutEnvironment (some plainClient) (some ds3InitGetService) true false =
        .returns (some ⟨.failedRequest, "Request failed: Timeout was reached".toList⟩,
          "<ListAllMyBucketsResult/>".toList) ∧
      ds3GetService timeoutEnvironment (some plainClient) (some ds3InitGetService) =
        .returns (.ok ⟨none, []⟩) := by
  exact ⟨rfl, rfl, rfl, by decide, rfl⟩


end Ds3.Operations
