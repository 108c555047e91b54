import Mathlib.Algebra.Group.Nat.Basic
import Ds3.Basic
import Ds3.Strings

/-! # Requests, their factories and their query strings

A request is built by one `ds3_init_*` factory: a verb, a path made of the
bucket and object names, at most one query parameter, and for the two bulk
commands the caller's object list.  `_net_gen_query_params` turns the query
table into the text after `?` in the URL.

`_hash_for_each` writes each `key=value` at index `size` of the array and never
advances `size`, so every entry lands in slot 0 and only the last one visited
survives: `netGenQueryParams_eq_last`.  Since GLib does not fix the visiting
order, which entry that is depends on the table. -/

set_option autoImplicit false

namespace Ds3.Requests

open Ds3

/-- Models `http_verb`. -/
inductive HttpVerb where
  | get
  | put
  | post
  | delete
  | head
deriving DecidableEq, Repr

/-- Modelled from the spec: `ds3_bulk_object`, whose declaration is not under
src/ (the `ds3.h` there predates `ds3.c`); the fields are those `ds3.c` reads
and writes, `name_size` being `strlen (name)`.  The size is a `uint64_t`. -/
structure BulkObject where
  name : Option (List Char)
  size : Nat
  size_lt : size < 2 ^ 64
deriving DecidableEq

/-- Modelled from the spec: `ds3_bulk_object_list`, declared with `ds3_bulk_object`;
`size` is the length of `list`. -/
structure BulkObjectList where
  list : List BulkObject
  serverId : Option (List Char)
  chunkNumber : Nat
deriving DecidableEq

/-- Models `struct _ds3_request` (`path_size` and `headers` are left out:
nothing reads them). -/
structure Request where
  verb : HttpVerb
  path : List Char
  length : Nat
  queryParams : HashTable (List Char)
  objectList : Option BulkObjectList

/-! ## Factories -/

/-- Models `_common_request_init` followed by the verb and path every factory sets. -/
def commonRequest (verb : HttpVerb) (path : List Char) : Request :=
  { verb, path, length := 0, queryParams := .empty, objectList := none }

/-- The path `g_strconcat ("/", bucket_name, NULL)`. -/
def bucketPath (bucketName : List Char) : List Char := '/' :: bucketName

/-- The path `g_strconcat ("/", bucket_name, "/", object_name, NULL)`. -/
def objectPath (bucketName objectName : List Char) : List Char :=
  '/' :: bucketName ++ '/' :: objectName

def ds3InitGetService : Request := commonRequest .get ['/']

def ds3InitGetBucket (bucketName : List Char) : Request := commonRequest .get (bucketPath bucketName)

def ds3InitGetObject (bucketName objectName : List Char) : Request :=
  commonRequest .get (objectPath bucketName objectName)

def ds3InitDeleteObject (bucketName objectName : List Char) : Request :=
  commonRequest .delete (objectPath bucketName objectName)

def ds3InitPutObject (bucketName objectName : List Char) (length : Nat) : Request :=
  { commonRequest .put (objectPath bucketName objectName) with length }

def ds3InitPutBucket (bucketName : List Char) : Request := commonRequest .put (bucketPath bucketName)

def ds3InitDeleteBucket (bucketName : List Char) : Request :=
  commonRequest .delete (bucketPath bucketName)

/-- The two bulk factories: a `PUT` on `/_rest_/bucket/<bucket>` with the
`operation` query parameter and the caller's object list. -/
def bulkRequest (operation bucketName : List Char) (objectList : Option BulkObjectList) : Request :=
  { commonRequest .put ("/_rest_/bucket/".toList ++ bucketName) with
    queryParams := HashTable.empty.insert "operation".toList operation
    objectList }

def ds3InitGetBulk (bucketName : List Char) (objectList : Option BulkObjectList) : Request :=
  bulkRequest "start_bulk_get".toList bucketName objectList

def ds3InitPutBulk (bucketName : List Char) (objectList : Option BulkObjectList) : Request :=
  bulkRequest "start_bulk_put".toList bucketName objectList

/-- Every request a `ds3_init_*` factory builds from a bucket name and an object
name (with the length and object list the caller passes). -/
def factoryRequests (bucketName objectName : List Char) (length : Nat)
    (objectList : Option BulkObjectList) : List Request :=
  [ds3InitGetService, ds3InitGetBucket bucketName, ds3InitGetObject bucketName objectName,
    ds3InitDeleteObject bucketName objectName, ds3InitPutObject bucketName objectName length,
    ds3InitPutBucket bucketName, ds3InitDeleteBucket bucketName,
    ds3InitGetBulk bucketName objectList, ds3InitPutBulk bucketName objectList]

/-! ## The query string -/

/-- Models `query_entries`: the array `_net_gen_query_params` fills, and the
index `_hash_for_each` writes at. -/
structure QueryEntries where
  entries : List (Option (List Char))
  size : Nat

/-- Models `_hash_for_each`: writes `key=value` at index `size`, which it never
advances. -/
def hashForEach (key value : List Char) (entries : QueryEntries) : QueryEntries :=
  { entries with entries := entries.entries.set entries.size (some (key ++ '=' :: value)) }

/-- The strings of a `NULL`-terminated array, as `g_strjoinv` reads it. -/
def strvStrings (array : List (Option (List Char))) : List (List Char) :=
  (array.takeWhile Option.isSome).filterMap id

/-- Models `_net_gen_query_params`: `NULL` for an empty table, otherwise the
array that `g_hash_table_foreach` filled, joined with `&`. -/
def netGenQueryParams (queryParams : HashTable (List Char)) : Option (List Char) :=
  if queryParams.size > 0 then
    let filled := queryParams.entries.foldl (fun entries binding => hashForEach binding.1 binding.2 entries)
      ⟨List.replicate (queryParams.size + 1) none, 0⟩
    some (gStrjoinv ['&'] (strvStrings filled.entries))
  else none

/-- Models the URL `_net_process_request` assembles: the endpoint and the path,
then `?` and the query string when there is one. -/
def requestUrl (endpoint : List Char) (request : Request) : List Char :=
  match netGenQueryParams request.queryParams with
  | none => endpoint ++ request.path
  | some queryParams => endpoint ++ request.path ++ '?' :: queryParams

/-- The text `key=value` of one query binding. -/
def queryEntry (binding : List Char × List Char) : List Char := binding.1 ++ '=' :: binding.2

theorem hashForEach_first (key value : List Char) (first : Option (List Char))
    (rest : List (Option (List Char))) :
    hashForEach key value ⟨first :: rest, 0⟩ = ⟨some (key ++ '=' :: value) :: rest, 0⟩ := rfl

theorem foldl_hashForEach (first : Option (List Char)) (free : Nat)
    (bindings : List (List Char × List Char)) :
    bindings.foldl (fun entries binding => hashForEach binding.1 binding.2 entries)
        ⟨first :: List.replicate free none, 0⟩ =
      ⟨(bindings.getLast?.map queryEntry).or first :: List.replicate free none, 0⟩ := by
  induction bindings generalizing first with
  | nil => simp
  | cons binding rest ih =>
      rw [List.foldl_cons, hashForEach_first, ih]
      cases rest <;> simp [queryEntry, List.getLast?_cons]

theorem strvStrings_first (entry : List Char) (free : Nat) :
    strvStrings (some entry :: List.replicate free none) = [entry] := by
  cases free <;> simp [strvStrings, List.replicate_succ]

theorem netGenQueryParams_eq_last (queryParams : HashTable (List Char)) :
    netGenQueryParams queryParams = queryParams.entries.getLast?.map queryEntry := by
  unfold netGenQueryParams HashTable.size
  cases entries : queryParams.entries with
  | nil => simp
  | cons binding rest =>
      simp only [List.length_cons, Nat.zero_lt_succ, if_true]
      rw [List.replicate_succ, foldl_hashForEach none]
      simp [strvStrings_first, List.getLast?_cons]

/-- With two query parameters the query string holds one of them, whichever
order the table visits them in; never both. -/
theorem netGenQueryParams_two_bindings (queryParams : HashTable (List Char))
    (bindings : queryParams.entries.Perm
      [("a".toList, "1".toList), ("b".toList, "2".toList)]) :
    netGenQueryParams queryParams = some "a=1".toList ∨
      netGenQueryParams queryParams = some "b=2".toList := by
  rw [netGenQueryParams_eq_last]
  cases last : queryParams.entries.getLast? with
  | none =>
      rw [List.getLast?_eq_none_iff] at last
      rw [last] at bindings
      exact absurd bindings.length_eq (by decide)
  | some binding =>
      have member := bindings.subset (List.mem_of_getLast?_eq_some last)
      simp only [List.mem_cons, List.mem_nil_iff, or_false] at member
      rcases member with rfl | rfl
      · exact .inl rfl
      · exact .inr rfl

theorem netGenQueryParams_two_bindings_inserted :
    ((HashTable.empty.insert "a".toList "1".toList).insert "b".toList "2".toList).entries.Perm
        [("a".toList, "1".toList), ("b".toList, "2".toList)] ∧
      (netGenQueryParams ((HashTable.empty.insert "a".toList "1".toList).insert "b".toList
          "2".toList) = some "a=1".toList ∨
        netGenQueryParams ((HashTable.empty.insert "a".toList "1".toList).insert "b".toList
          "2".toList) = some "b=2".toList) :=
  ⟨by decide, netGenQueryParams_two_bindings _ (by decide)⟩

end Ds3.Requests
