import LiteHarness.Domain.Records
import LiteHarness.Foundation.Table
import LiteHarness.Platform.Crypto
import LiteHarness.Platform.JsValue

/-!
# The store of context blocks

`ContextStore` keeps a row for each context block. `put` takes a block for the one that is stored
where the digests of their texts are equal; it compares nothing else. Texts are bound to a statement
and read from a column as UTF-8.
-/

namespace LiteHarness.Context

/-- `ContextBlockKind`. -/
inductive ContextBlockKind where
  | instructions
  | conversation
  | toolState
  | source
  | logs
  | memory
  deriving DecidableEq

/-- A kind as it is written. -/
def ContextBlockKind.text : ContextBlockKind → JsString
  | .instructions => js "instructions"
  | .conversation => js "conversation"
  | .toolState => js "tool-state"
  | .source => js "source"
  | .logs => js "logs"
  | .memory => js "memory"

/-- `timeRange`. -/
structure TimeRange where
  start : Option JsString := none
  ends : Option JsString := none
  deriving DecidableEq

/-- `ContextBlock`. -/
structure ContextBlock where
  id : JsString
  kind : ContextBlockKind
  exactText : JsString
  lossyEligible : Bool
  sensitive : Bool
  provenance : Option JsString := none
  timeRange : Option TimeRange := none
  deriving DecidableEq

/-- A row of `context_blocks`. -/
structure ContextRow where
  id : Bytes
  kind : ContextBlockKind
  exactText : Bytes
  exactSha256 : JsString
  lossyEligible : Bool
  sensitive : Bool
  provenance : Option Bytes
  timeStart : Option Bytes
  timeEnd : Option Bytes
  createdAt : ℤ
  deriving DecidableEq

/-- What the store takes from the host. -/
structure ContextHost where
  /-- A text as it is bound to a statement. -/
  bind : JsString → Bytes
  /-- A text as it is read from a column. -/
  column : Bytes → JsString
  /-- `createHash("sha256").update(text).digest("hex")`. -/
  sha256 : JsString → JsString

variable (H : ContextHost)

/-- A text that is read as it was written. -/
def ContextHost.Keeps (text : JsString) : Prop := H.column (H.bind text) = text

instance (text : JsString) : Decidable (H.Keeps text) := inferInstanceAs (Decidable (_ = _))

/-! ## Rows -/

/-- The values of the `INSERT`. -/
def newRow (block : ContextBlock) (now : ℤ) : ContextRow where
  id := H.bind block.id
  kind := block.kind
  exactText := H.bind block.exactText
  exactSha256 := H.sha256 block.exactText
  lossyEligible := block.lossyEligible
  sensitive := block.sensitive
  provenance := block.provenance.map H.bind
  timeStart := (block.timeRange.bind (·.start)).map H.bind
  timeEnd := (block.timeRange.bind (·.ends)).map H.bind
  createdAt := now

/-- A row as a block. -/
def toBlock (row : ContextRow) : ContextBlock where
  id := H.column row.id
  kind := row.kind
  exactText := H.column row.exactText
  lossyEligible := row.lossyEligible
  sensitive := row.sensitive
  provenance := truthy (row.provenance.map H.column)
  timeRange :=
    let start := truthy (row.timeStart.map H.column)
    let ends := truthy (row.timeEnd.map H.column)
    if start.isSome || ends.isSome then some ⟨start, ends⟩ else none

/-- The row of a block. -/
def row? (rows : List ContextRow) (id : JsString) : Option ContextRow :=
  Foundation.Table.lookup ContextRow.id (H.bind id) rows

/-- `put`. -/
def put (rows : List ContextRow) (block : ContextBlock) (now : ℤ) :
    Except JsError (List ContextRow) :=
  if block.id = [] ∨ block.exactText = [] then
    .error (.new (js "Context block id and exact text are required"))
  else
    match row? H rows block.id with
    | some existing =>
      if existing.exactSha256 ≠ H.sha256 block.exactText then
        .error (.new (js "Context block is immutable: " ++ block.id))
      else .ok rows
    | none => .ok (rows ++ [newRow H block now])

/-- `fetchExact`. -/
def fetchExact (rows : List ContextRow) (id : JsString) : Except JsError JsString :=
  match row? H rows id with
  | none => .error (.new (js "Context block not found: " ++ id))
  | some row => .ok (H.column row.exactText)

/-- `ORDER BY created_at, id`. -/
def rowLe (row row' : ContextRow) : Prop :=
  row.createdAt < row'.createdAt ∨ row.createdAt = row'.createdAt ∧
    row.id.map UInt8.toNat ≤ row'.id.map UInt8.toNat

instance : DecidableRel rowLe := fun _ _ ↦ inferInstanceAs (Decidable (_ ∨ _ ∧ _))

/-- `list`. -/
def list (rows : List ContextRow) : List ContextBlock :=
  (rows.insertionSort rowLe).map (toBlock H)

end LiteHarness.Context
