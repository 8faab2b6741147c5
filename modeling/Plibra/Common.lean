import Mathlib.Data.List.Dedup

/-!
# Plibra.Common — the JSON-RPC 2.0 values the batch core carries

The `common` module of `jsonrpsee` is not among the sources; `batches.rs` and its tests use
`common::Request`, `common::Call`, `common::MethodCall`, `common::Notification`, `common::Id`,
`common::Params`, `common::Output` and `common::Response`, and the spec (§6) fixes their shape:
a message is one call or a list of calls, a call is a notification or a method call with an id.
The core never looks inside parameters or results, so `JsonValue` is only carried.  The
`jsonrpc` version field (always `V2`) is left out.
-/

namespace Plibra

/-- A JSON value (`common::JsonValue`). -/
inductive JsonValue where
  | null
  | bool (b : Bool)
  | number (n : Int)
  | string (s : String)
  | array (elems : List JsonValue)
  | object (fields : List (String × JsonValue))

/-- The id a client gives a method call (`common::Id`). -/
inductive Id where
  | null
  | num (n : UInt64)
  | str (s : String)
  deriving DecidableEq

/-- The parameters of a call (`common::Params`). -/
inductive Params where
  | none
  | array (values : List JsonValue)
  | map (entries : List (String × JsonValue))

/-- A JSON-RPC error object (`common::Error`). -/
structure Error where
  code : Int
  message : String
  data : Option JsonValue

/-- A call that expects an answer (`common::MethodCall`). -/
structure MethodCall where
  method : String
  params : Params
  id : Id

/-- A call that expects no answer (`common::Notification`). -/
structure Notification where
  method : String
  params : Params

/-- One element of a client message (`common::Call`). -/
inductive Call where
  | methodCall (call : MethodCall)
  | notification (notification : Notification)

/-- A decoded client message: one call, or a JSON array of calls (`common::Request`). -/
inductive Request where
  | single (call : Call)
  | batch (calls : List Call)

/-- The calls of a message, in the client's order. -/
def Request.calls : Request → List Call
  | .single call => [call]
  | .batch calls => calls

/-- The answer to one method call (`common::Output`). -/
inductive Output where
  | success (result : JsonValue) (id : Id)
  | failure (error : Error) (id : Id)

/-- `Output::from`: the answer built from a result and the id of the call it answers. -/
def Output.ofResult (response : Except Error JsonValue) (id : Id) : Output :=
  match response with
  | .ok result => .success result id
  | .error error => .failure error id

/-- What is sent back for one message (`common::Response`). -/
inductive Response where
  | single (output : Output)
  | batch (outputs : List Output)

end Plibra
