import LiteHarness.Platform.JsString

/-!
# Run statuses and their transition table

The statuses of a run, which of them are terminal, and the table `assertRunTransition` checks. The
table is consulted by one writer only, the service's own transition function; `appendEvent` takes
any status it is given.
-/

namespace LiteHarness

/-! ## Exceptions -/

/-- The classes of exceptions the service tells apart. -/
inductive JsErrorKind where
  /-- A plain `Error`, or an exception of code outside the service. -/
  | error
  | invalidRunTransition
  | runTimeout
  | runCancelled
  | workspaceLeaseLost
  | budgetExceeded
  deriving DecidableEq

/-- A thrown exception. -/
structure JsError where
  kind : JsErrorKind
  message : JsString
  deriving DecidableEq

/-- `new Error(message)`. -/
def JsError.new (message : JsString) : JsError := ⟨.error, message⟩

/-! ## Statuses -/

/-- The status of a run. -/
inductive RunStatus where
  | accepted | queued | preparing | running | checkpointing
  | succeeded | failed | cancelled | timedOut | orphaned
  deriving DecidableEq

namespace RunStatus

/-- The status as the program writes it. -/
def text : RunStatus → JsString
  | accepted => js "ACCEPTED"
  | queued => js "QUEUED"
  | preparing => js "PREPARING"
  | running => js "RUNNING"
  | checkpointing => js "CHECKPOINTING"
  | succeeded => js "SUCCEEDED"
  | failed => js "FAILED"
  | cancelled => js "CANCELLED"
  | timedOut => js "TIMED_OUT"
  | orphaned => js "ORPHANED"

/-- Membership in `terminalStatuses`. -/
def isTerminalRunStatus : RunStatus → Bool
  | succeeded | failed | cancelled | timedOut | orphaned => true
  | accepted | queued | preparing | running | checkpointing => false

/-- The statuses a run or an attempt can end with. -/
abbrev Terminal := { s : RunStatus // s.isTerminalRunStatus = true }

/-- The table of allowed transitions. -/
def allowedTransitions : RunStatus → List RunStatus
  | accepted => [queued, cancelled, failed]
  | queued => [preparing, cancelled, failed, timedOut]
  | preparing => [running, cancelled, failed, timedOut]
  | running => [checkpointing, succeeded, cancelled, failed, timedOut, orphaned]
  | checkpointing => [succeeded, failed, orphaned]
  | succeeded | failed | cancelled | timedOut | orphaned => []

/-- `from` may be followed by `to` according to the table. -/
def Allowed (source target : RunStatus) : Prop := target ∈ allowedTransitions source

instance (source target : RunStatus) : Decidable (Allowed source target) :=
  inferInstanceAs (Decidable (_ ∈ _))

/-- Nothing follows a terminal status. -/
theorem not_isTerminal_of_allowed {source target : RunStatus} (h : Allowed source target) :
    isTerminalRunStatus source = false := by
  cases source <;> first | rfl | exact absurd h List.not_mem_nil

/-- The message of an `InvalidRunTransitionError`. -/
def invalidTransition (source target : RunStatus) : JsError :=
  ⟨.invalidRunTransition,
    js "Run cannot transition from " ++ source.text ++ js " to " ++ target.text⟩

/-- Throws unless the table allows the transition. -/
def assertRunTransition (source target : RunStatus) : Except JsError Unit :=
  if target ∈ allowedTransitions source then .ok () else .error (invalidTransition source target)

theorem assertRunTransition_eq_ok_iff {source target : RunStatus} :
    assertRunTransition source target = .ok () ↔ Allowed source target := by
  rw [assertRunTransition, Allowed]
  split_ifs with h <;> simp [h]

end RunStatus

end LiteHarness
