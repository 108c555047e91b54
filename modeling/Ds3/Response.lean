import Ds3.Executor
import Ds3.Xml.Decode
import Ds3.Xml.Parse

/-! # Reading a response body

`ds3_get_service`, `ds3_get_bucket` and `ds3_bulk` read the body the exchange
delivered in the same way: `xmlParseMemory`, then an `INVALID_XML` error that
quotes the body when the text is not a document or its root is not the one
expected, then the operation's decoder.  `responseRoot` is the shared part,
applied by each operation to its own root name and message.

The messages quote `xml_blob->data` through `g_strconcat`, which reads a C
string: the model reads the body up to its first NUL.  The byte array is not
NUL-terminated, so the C code may read past its end; what it reads there is
left out. -/

set_option autoImplicit false

namespace Ds3.Response

open Ds3 Ds3.Xml Ds3.Executor

/-- The error for a body that `xmlParseMemory` refuses. -/
def parseFailedError (body : List Char) : Ds3Error :=
  ds3CreateError .invalidXml
    ("Failed to parse response document.  The actual response is: ".toList ++ cString body)

/-- The error for a document whose root is not the expected one; `quoted` is the
root name the message gives. -/
def rootError (quoted : String) (body : List Char) : Ds3Error :=
  ds3CreateError .invalidXml
    ("Expected the root element to be '".toList ++ quoted.toList ++
      "'.  The actual response is: ".toList ++ cString body)

/-- The root of a response document named `expected`, or the error the
operation returns. -/
def responseRoot (expected quoted : String) (body : List Char) : Except Ds3Error XmlNode :=
  match parseDocument body with
  | none => .error (parseFailedError body)
  | some root => if root.name = expected then .ok root else .error (rootError quoted body)

/-- The root check of `ds3_get_service`. -/
def getServiceRoot (body : List Char) : Except Ds3Error XmlNode :=
  responseRoot "ListAllMyBucketsResult" "ListAllMyBucketsResult" body

/-- The root check of `ds3_get_bucket`, whose message names a root other than
the one it checks. -/
def getBucketRoot (body : List Char) : Except Ds3Error XmlNode :=
  responseRoot "ListBucketResult" "ListBucketsResult" body

/-- The root check of `ds3_bulk`. -/
def bulkRoot (body : List Char) : Except Ds3Error XmlNode :=
  responseRoot "MasterObjectList" "MasterObjectList" body

/-- The part of `ds3_get_service` after the exchange. -/
def getServiceResponse (body : List Char) : Outcome (Except Ds3Error GetServiceResponse) :=
  match getServiceRoot body with
  | .error error => pure (.error error)
  | .ok root => Except.ok <$> getServiceBody root

/-- The part of `ds3_get_bucket` after the exchange. -/
def getBucketResponse (body : List Char) : Outcome (Except Ds3Error GetBucketResponse) :=
  match getBucketRoot body with
  | .error error => pure (.error error)
  | .ok root => Except.ok <$> getBucketBody root

/-- The part of `ds3_bulk` after the exchange. -/
def bulkResponse (body : List Char) : Except Ds3Error BulkResponse :=
  (bulkRoot body).map bulkResponseBody

end Ds3.Response
