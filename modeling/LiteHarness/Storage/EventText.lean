import LiteHarness.Storage.Rows

/-!
# Events as JSON text

What leaves the process is the JSON text of an event: `JSON.stringify`, the UTF-8 length
`Buffer.byteLength` reports for a text, and the records the events of the service stand for. Unlike
the canonical serializer, `JSON.stringify` keeps the insertion order of keys, drops the fields
without a value and writes `null` for numbers that are not finite.
-/

namespace LiteHarness

open Foundation

/-! ## Serialization -/

namespace NumberLiterals

variable (N : NumberLiterals)

mutual

/-- `JSON.stringify(value)`; `none` is `undefined`. -/
def stringify? : JsValue → Option JsString
  | .null => some (js "null")
  | .string s => some (stringLiteral s)
  | .bool b => some (if b then js "true" else js "false")
  | .number n => some ((n.rat?.map N.literal).getD (js "null"))
  | .array items => some (openBracket :: closedList comma closeBracket (stringifyItems items))
  | .object fields => some (openBrace :: closedList comma closeBrace (stringifyFields fields))
  | .undefined => none
  | .other => none

def stringifyItems : List JsValue → List JsString
  | [] => []
  | v :: vs => (stringify? v).getD (js "null") :: stringifyItems vs

/-- The fields of an object that have a value. -/
def stringifyFields : List (JsString × JsValue) → List JsString
  | [] => []
  | (k, v) :: fs =>
    match stringify? v with
    | some text => (stringLiteral k ++ colon :: text) :: stringifyFields fs
    | none => stringifyFields fs

end

/-- `JSON.stringify` of an object. -/
def stringify (fields : List (JsString × JsValue)) : JsString :=
  openBrace :: closedList comma closeBrace (N.stringifyFields fields)

end NumberLiterals

/-! ## Lengths of literals -/

theorem one_le_length_escapeUnit (u : UInt16) : 1 ≤ (escapeUnit u).length := by
  rw [escapeUnit]
  split
  · exact Nat.le_add_left 1 1
  · split_ifs
    · exact Nat.le_add_left 1 5
    · exact le_rfl

/-- A string literal is longer than its string. -/
theorem length_le_length_stringLiteral (s : JsString) : s.length ≤ (stringLiteral s).length := by
  have hunits : s.length ≤ (escapeUnits s).length := by
    induction s using escapeUnits.induct with
    | case1 => exact Nat.zero_le _
    | case2 u v rest hpair ih =>
      rw [escapeUnits, if_pos hpair]
      exact Nat.succ_le_succ (Nat.succ_le_succ ih)
    | case3 u v rest hpair ih =>
      have := one_le_length_escapeUnit u
      rw [escapeUnits, if_neg hpair, List.length_append, List.length_cons]
      omega
    | case4 u => exact one_le_length_escapeUnit u
  rw [stringLiteral, List.length_cons, List.length_append]
  omega

/-- A list is longer than each of its words. -/
theorem length_le_length_closedList (sep close : UInt16) {words : List JsString} {w : JsString}
    (h : w ∈ words) : w.length ≤ (closedList sep close words).length := by
  induction words with
  | nil => exact absurd h List.not_mem_nil
  | cons v words ih =>
    cases words with
    | nil =>
      rw [List.mem_singleton.mp h, closedList_singleton, List.length_append]
      omega
    | cons v' words =>
      rw [closedList_cons_cons, List.length_append, List.length_cons]
      rcases List.mem_cons.mp h with rfl | h
      · omega
      · have := ih h
        omega

/-! ## The records of events -/

/-- `value` when it is given, and no field otherwise. -/
def given (s : Option JsString) : JsValue := (s.map JsValue.string).getD .undefined

/-- A whole number. -/
def count (n : ℕ) : JsValue := .number (.finite n)

/-- A tool call as it is stored. -/
def ToolCall.json (call : ToolCall) : JsValue :=
  .object [(js "id", .string call.id), (js "name", .string call.name),
    (js "arguments", .object call.arguments)]

/-- An approval status as the program writes it. -/
def ApprovalStatus.text : ApprovalStatus → JsString
  | pending => js "PENDING"
  | approved => js "APPROVED"
  | denied => js "DENIED"
  | expired => js "EXPIRED"

/-- The fields a transition adds to its payload. -/
def TransitionPayload.fields (d : TransitionPayload) : List (JsString × JsValue) :=
  [(js "reason", given d.reason), (js "code", given d.code), (js "message", given d.message),
    (js "retryable", (d.retryable.map JsValue.bool).getD .undefined), (js "phase", given d.phase),
    (js "previousStatus", given (d.previousStatus.map RunStatus.text))]

/-- The payload of an event as the record it stands for, as far as the service reads it. -/
def EventPayload.json (P : Platform) : EventPayload → JsValue
  | lifecycle status details => .object ((js "status", .string status.text) :: details.fields)
  | subagentStarted childRunId agent workspaceId depth =>
    .object [(js "childRunId", .string childRunId), (js "agent", .string agent),
      (js "workspaceId", .string workspaceId), (js "depth", .number (.finite depth))]
  | subagentCompleted childRunId status summary errorCode =>
    .object [(js "childRunId", .string childRunId), (js "status", .string status.text),
      (js "summary", given summary), (js "errorCode", given errorCode)]
  | approvalRequested approvalId toolCallId toolName toolArgumentsDigest executionDigest expiresAt =>
    .object [(js "approvalId", .string approvalId), (js "toolCallId", .string toolCallId),
      (js "toolName", .string toolName), (js "toolArgumentsDigest", .string toolArgumentsDigest),
      (js "executionDigest", .string executionDigest),
      (js "expiresAt", .string (P.toISOString expiresAt))]
  | approvalResolved approvalId status executionDigest =>
    .object [(js "approvalId", .string approvalId), (js "status", .string status.text),
      (js "executionDigest", .string executionDigest)]
  | workspaceLease workspaceId fencingToken =>
    .object [(js "workspaceId", .string workspaceId), (js "fencingToken", count fencingToken)]
  | workspaceRestored workspaceId recoveredFromPrevious =>
    .object [(js "workspaceId", .string workspaceId),
      (js "recoveredFromPrevious", .bool recoveredFromPrevious)]
  | checkpointCompleted workspaceId cold skipped =>
    .object [(js "workspaceId", .string workspaceId),
      (js "state", .string (if cold then js "COLD" else js "WARM")), (js "skipped", .bool skipped)]
  | checkpointFailed workspaceId message =>
    .object [(js "workspaceId", given workspaceId), (js "message", .string message)]
  | snapshotFrozen attemptId digest =>
    .object [(js "attemptId", .string attemptId), (js "digest", .string digest)]
  | steered instruction => .object [(js "instruction", .string instruction)]
  | messageDelta delta turn => .object [(js "delta", .string delta), (js "turn", count turn)]
  | messageCompleted content toolCalls turn =>
    .object [(js "role", .string (js "assistant")), (js "content", .string content),
      (js "toolCalls", .array (toolCalls.map ToolCall.json)), (js "turn", count turn)]
  | toolRequested callId name arguments =>
    .object [(js "callId", .string callId), (js "name", .string name),
      (js "arguments", .object arguments)]
  | toolCompleted callId ok content metadata =>
    .object [(js "callId", .string callId), (js "ok", .bool ok), (js "content", .string content),
      (js "metadata", metadata)]
  | usage inputTokens outputTokens costUsd =>
    .object [(js "type", .string (js "usage")), (js "inputTokens", inputTokens),
      (js "outputTokens", outputTokens), (js "costUsd", costUsd)]
  | artifact artifactId path sha256 sizeBytes =>
    .object [(js "artifactId", .string artifactId), (js "path", .string path),
      (js "sha256", .string sha256), (js "sizeBytes", count sizeBytes)]

/-- `toEvent(row)`, with the record of the payload left open. -/
def EventRow.fields (P : Platform) (payload : EventPayload → JsValue) (e : EventRow) :
    List (JsString × JsValue) :=
  [(js "runId", .string e.runId), (js "sequence", count e.sequence),
    (js "type", .string e.type.text), (js "payload", payload e.payload),
    (js "createdAt", .string (P.toISOString e.createdAt))]

end LiteHarness
