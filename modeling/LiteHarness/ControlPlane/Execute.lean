import LiteHarness.ControlPlane.Agent

/-!
# Queueing and executing a run

`#enqueue` and the stretches of `#execute`: its `try` block from one `await` to the next, the
`catch` block, and the `finally` block with its own two suspensions. Whatever leaves the `finally`
block, normally or by an exception, settles the execution promise.
-/

namespace LiteHarness

open Foundation Foundation.Eff

/-- `ownerQueuePrefix(run)`. -/
def ownerQueuePrefix (owner : ResourceOwner) : JsString :=
  sized owner.appId ++ colon :: (sized owner.tenantId ++ colon :: sized owner.userId)

/-- The key of the queue of a workspace. -/
def workspaceQueueKey (owner : ResourceOwner) (workspaceId : JsString) : JsString :=
  ownerQueuePrefix owner ++ js ":workspace:" ++ workspaceId

/-- The key of the queue of a session. -/
def sessionQueueKey (owner : ResourceOwner) (sessionId : JsString) : JsString :=
  ownerQueuePrefix owner ++ js ":session:" ++ sessionId

/-- The keys a run queues on, sorted. -/
def queueKeys (run : RunRecord) : List JsString :=
  (workspaceQueueKey run.owner run.workspaceId ::
    (run.sessionId.map (sessionQueueKey run.owner)).toList).insertionSort keyLe

/-- The outcome of `workspaceLifecycle.prepare`. -/
structure PrepareResult where
  restored : Bool
  recoveredFromPrevious : Bool

/-- The outcome of `workspaceLifecycle.checkpoint`. -/
structure CheckpointResult where
  cold : Bool
  skipped : Bool

/-- The outcome of `releaseRun`; a release hook that is absent releases. -/
inductive ReleaseOutcome where
  | released | cleanupDebtRecorded | thrown
  deriving DecidableEq

namespace Service

variable (H : Host) (O : Options)

/-! ## The queue -/

/-- `#enqueue`, the body of a run's `setImmediate` callback. -/
def enqueue (run : RunRecord) : ServiceM PUnit := do
  if ← transitionIfActive H run.id .queued .runQueued then
    let keys := queueKeys run
    let s ← get
    let predecessors := keys.filterMap fun key ↦
      (s.queueTails.find? fun tail ↦ tail.1 = key).map Prod.snd
    let t ← now H
    if acceptedDeadline run - t ≤ 0 then timeoutQueuedRun H run.id run.budget.totalTimeoutMs
    else
      modify fun s ↦
        { s with
          executions := s.executions ++ [{ runId := run.id, run, keys, predecessors }]
          queueTails := keys.foldl
            (fun tails key ↦ Table.upsert Prod.fst (key, run.id) (fun tail ↦ (tail.1, run.id)) tails)
            s.queueTails }

/-- `tail.finally`: the settled promise leaves the maps. -/
def drain (e : Execution) : ServiceM PUnit := do
  updateExecution e.runId fun e ↦ { e with drained := true }
  modify fun s ↦
    { s with
      queueTails := s.queueTails.filter fun tail ↦ ¬(tail.1 ∈ e.keys ∧ tail.2 = e.runId) }

/-! ## The `finally` block -/

/-- The terminal result of a lost lease. -/
def leaseLostResult (message : JsString) : TerminalResult where
  status := .orphaned
  type := .runOrphaned
  payload := { code := js "workspace_lease_lost", message, retryable := true }
  ends := ⟨rfl, rfl⟩

/-- The `catch` block: the terminal result of an exception under the controller's abort reason. -/
def failureOf (reason : Option JsError) (error : JsError) : TerminalResult :=
  let leaseLost := leaseLostResult (js "Workspace lease renewal or fencing validation failed")
  match reason with
  | some ⟨.runCancelled, _⟩ => ⟨.cancelled, .runCancelled, { reason := js "requested" }, rfl, rfl⟩
  | some ⟨.runTimeout, message⟩ =>
    ⟨.timedOut, .runTimedOut, { code := js "run_timeout", message, retryable := true }, rfl, rfl⟩
  | some ⟨.budgetExceeded, message⟩ =>
    ⟨.failed, .runFailed, { code := js "budget_exceeded", message, retryable := false }, rfl, rfl⟩
  | some ⟨.workspaceLeaseLost, _⟩ => leaseLost
  | _ =>
    if error.kind = .workspaceLeaseLost then leaseLost
    else
      ⟨.failed, .runFailed, { code := js "agent_run_failed", message := error.message }, rfl, rfl⟩

/-- What a failed checkpoint makes of the terminal result. -/
def afterCheckpointFailure (error : JsError) (leaseLost : Bool) (terminal : TerminalResult) :
    TerminalResult :=
  if error.kind = .workspaceLeaseLost ∨ leaseLost then leaseLostResult error.message
  else if terminal.status = .succeeded then
    ⟨.failed, .runFailed,
      { code := js "workspace_checkpoint_failed", message := error.message }, rfl, rfl⟩
  else terminal

/-- The `catch` block of the checkpoint. -/
def checkpointFailed (runId : JsString) (error : JsError) : ServiceM PUnit := do
  let run ← getRun runId
  let _ ← appendEvent H
    { runId, type := .workspaceCheckpointFailed
      payload := .checkpointFailed (run.map RunRecord.workspaceId) error.message }
  updateExecution runId fun e ↦
    { e with terminal := e.terminal.map (afterCheckpointFailure error e.leaseLost) }

/-- The `finally` block after the checkpoint, up to the `await` of `releaseRun`. -/
def releaseLease (runId : JsString) : ServiceM PUnit := do
  updateExecution runId fun e ↦ { e with renewal := false }
  let s ← get
  match (s.execution? runId).bind Execution.lease with
  | some lease =>
    let t ← now H
    let released ← onStore (Store.releaseWorkspaceLease t lease)
    if released then
      match ← getRun runId with
      | some latest =>
        let _ ← appendEvent H
          { runId, type := .workspaceLeaseReleased
            payload := .workspaceLease latest.workspaceId lease.fencingToken }
      | none => pure ⟨⟩
    else
      updateExecution runId fun e ↦
        { e with
          terminal := e.terminal.map fun terminal ↦
            if terminal.status = .succeeded then
              leaseLostResult
                (js "Workspace lease could not be released with the active fencing token")
            else terminal }
  | none => pure ⟨⟩
  modify fun s ↦
    { s with
      active := s.active.filter fun r ↦ r ≠ runId
      steering := s.steering.filter fun entry ↦ entry.1 ≠ runId }
  setPoint runId .releasing

/-- The `finally` block up to its first suspension. -/
def finallyBlock (runId : JsString) : ServiceM PUnit := do
  updateExecution runId fun e ↦ { e with timeout := false }
  let s ← get
  match (s.execution? runId).bind fun e ↦
      if e.workspacePrepared ∧ e.terminal.isSome then e.lease else none with
  | some lease =>
    if O.workspaceLifecycle then
      let checkpointing ← tryCatch
        (do
          match ← getRun runId with
          | none => pure false
          | some _ =>
            let t ← now H
            let s ← get
            if Store.validateWorkspaceLease t lease s.store then pure true
            else throw workspaceLeaseLostError)
        fun error ↦ do
          checkpointFailed H runId error
          pure false
      if checkpointing then setPoint runId .checkpointing else releaseLease H runId
    else releaseLease H runId
  | none => releaseLease H runId

/-- A stretch of the `try` block: it is suspended at a point, or it ends, and then `finally`
follows, after `catch` where it threw. -/
def tryBlock (runId : JsString) (body : ServiceM (Option Point)) : ServiceM PUnit := do
  let next ← tryCatch body fun error ↦ do
    updateExecution runId fun e ↦ { e with terminal := some (failureOf e.abortReason error) }
    pure none
  match next with
  | some point => setPoint runId point
  | none => finallyBlock H O runId

/-- An exception that leaves `#execute` rejects its promise, which settles it. -/
def settling (runId : JsString) (m : ServiceM PUnit) : ServiceM PUnit :=
  tryCatch m fun _ ↦ setPoint runId .settled

/-- A stretch of the `try` block, with its promise. -/
def execution (runId : JsString) (body : ServiceM (Option Point)) : ServiceM PUnit :=
  settling runId (tryBlock H O runId body)

/-! ## The `try` block -/

/-- One round of `#waitForWorkspaceLease`. -/
def waitForWorkspaceLease (run : RunRecord) (deadline : ℤ) : ServiceM Point := do
  let t ← now H
  if deadline < t then
    throw (.new (js "Workspace lease timed out for " ++ run.workspaceId))
  else
    throwIfAborted run.id
    let t ← now H
    match ← onStore
        (Store.acquireWorkspaceLease t run.workspaceId run.id O.workspaceLeaseTtlMs) with
    | some lease => pure (.leaseAcquired lease)
    | none => pure (.waitingLease deadline)

/-- The first stretch: the attempt, `PREPARING`, and the first try for the lease. -/
def executeStart (runId : JsString) : ServiceM (Option Point) := do
  match ← getRun runId with
  | none => throw (.new (js "Run disappeared: " ++ runId))
  | some run =>
    updateExecution runId fun e ↦ { e with run }
    let t ← now H
    if acceptedDeadline run - t ≤ 0 then
      timeoutQueuedRun H run.id run.budget.totalTimeoutMs
      pure none
    else
      let attempt ← createId H "att"
      let t ← now H
      let _ ← onStore (Store.createRunAttempt t runId attempt)
      updateExecution runId fun e ↦ { e with attempt := some attempt }
      if ← transitionIfActive H runId .preparing .runPreparing then
        updateExecution runId fun e ↦ { e with timeout := true }
        let t ← now H
        let point ← waitForWorkspaceLease H O run (t + O.workspaceQueueTimeoutMs)
        pure (some point)
      else pure none

/-- `#execute` from its start, and the check of the queue in front of it. -/
def startExecution (e : Execution) : ServiceM PUnit := do
  updateExecution e.runId fun e ↦ { e with queueTimeout := false }
  match ← getRun e.runId with
  | none => setPoint e.runId .settled
  | some current =>
    if current.status.isTerminalRunStatus then setPoint e.runId .settled
    else
      modify fun s ↦ { s with active := s.active ++ [e.runId] }
      execution H O e.runId (executeStart H O e.runId)

/-- `RUNNING`, and the call of `agent.run`. -/
def startAgent (e : Execution) : ServiceM (Option Point) := do
  if ← transitionIfActive H e.runId .running .runStarted then
    let s ← get
    let history :=
      match e.run.sessionId with
      | some sessionId =>
        (s.store.listSessionMessages sessionId e.run.owner 1000).map toModelMessage
      | none => []
    match s.store.getAgentProfile e.run.agentId e.run.owner with
    | none => throw (.new (js "Agent profile is unavailable: " ++ e.run.agentId))
    | some profile =>
      pure (some (.agent .preparing { instructions := profile.instructions, messages := history }))
  else pure none

/-- The lease has been granted. -/
def leaseGranted (e : Execution) (lease : WorkspaceLease) : ServiceM (Option Point) := do
  updateExecution e.runId fun e ↦ { e with lease := some lease }
  let _ ← appendEvent H
    { runId := e.runId, type := .workspaceLeaseAcquired
      payload := .workspaceLease e.run.workspaceId lease.fencingToken }
  updateExecution e.runId fun e ↦ { e with renewal := true }
  if O.workspaceLifecycle then pure (some .preparing) else startAgent H e

/-- `workspaceLifecycle.prepare` has resolved. -/
def workspacePrepared (e : Execution) (prepared : PrepareResult) : ServiceM (Option Point) := do
  updateExecution e.runId fun e ↦ { e with workspacePrepared := true }
  if prepared.restored then
    let _ ← appendEvent H
      { runId := e.runId, type := .workspaceRestoreCompleted
        payload := .workspaceRestored e.run.workspaceId prepared.recoveredFromPrevious }
  startAgent H e

/-- `agent.run` has resolved: the run has succeeded, up to its checkpoint. -/
def agentReturned (runId : JsString) : ServiceM (Option Point) := do
  if O.workspaceLifecycle then transition H runId .checkpointing .runCheckpointing
  updateExecution runId fun e ↦ { e with terminal := some ⟨.succeeded, .runSucceeded, {}, rfl, rfl⟩ }
  pure none

/-- A stretch of the agent loop; what it throws rejects the promise of `agent.run`. -/
def agentStretch (runId : JsString) (m : ServiceM Point) : ServiceM PUnit := do
  let point ← tryCatch m fun error ↦ pure (.rejected error)
  setPoint runId point

/-! ## Timers and outcomes -/

/-- A tick of the renewal interval. -/
def renewLease (e : Execution) : ServiceM PUnit := do
  match e.lease with
  | none => pure ⟨⟩
  | some lease =>
    let t ← now H
    match ← onStore (Store.renewWorkspaceLease t lease O.workspaceLeaseTtlMs) with
    | some renewed => updateExecution e.runId fun e ↦ { e with lease := some renewed }
    | none =>
      updateExecution e.runId fun e ↦ { e with leaseLost := true }
      abort H e.runId workspaceLeaseLostError

/-- The checkpoint has finished. -/
def checkpointed (e : Execution) (outcome : Except JsString CheckpointResult) :
    ServiceM PUnit :=
  settling e.runId do
    match outcome with
    | .ok result =>
      tryCatch
        (do
          let _ ← appendEvent H
            { runId := e.runId, type := .workspaceCheckpointCompleted
              payload := .checkpointCompleted e.run.workspaceId result.cold result.skipped })
        (checkpointFailed H e.runId)
    | .error message => checkpointFailed H e.runId (.new message)
    releaseLease H e.runId

/-- What the outcome of `releaseRun` makes of the terminal result. -/
def afterRelease (outcome : ReleaseOutcome) (terminal : Option TerminalResult) :
    Option TerminalResult :=
  match outcome with
  | .released => terminal
  | .cleanupDebtRecorded =>
    some ⟨.orphaned, .runOrphaned,
      { code := js "run_cleanup_failed"
        message := js ("Required run cleanup exhausted its retry budget; " ++
          "durable cleanup debt was recorded")
        retryable := true }, rfl, rfl⟩
  | .thrown =>
    some ⟨.orphaned, .runOrphaned,
      { code := js "run_finalization_failed"
        message := js ("Required run finalization failed before cleanup completion or " ++
          "durable recovery state could be confirmed")
        retryable := true }, rfl, rfl⟩

/-- The end of the `finally` block. -/
def released (e : Execution) (outcome : ReleaseOutcome) : ServiceM PUnit :=
  settling e.runId do
    match ← getRun e.runId with
    | none => pure ⟨⟩
    | some latest =>
      if latest.status.isTerminalRunStatus then pure ⟨⟩
      else
        match afterRelease outcome e.terminal with
        | some terminal => transition H e.runId terminal.status terminal.type terminal.payload
        | none =>
          if e.attempt.isSome then
            transition H e.runId .failed .runFailed
              { code := js "run_finalization_failed"
                message := js "Run execution ended without a terminal result" }
          else pure ⟨⟩
    setPoint e.runId .settled

end Service

end LiteHarness
