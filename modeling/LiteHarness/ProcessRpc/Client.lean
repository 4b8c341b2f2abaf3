import LiteHarness.ControlPlane.Agent

/-!
# The client of a child process

`JsonLineRpcClient`: requests go to a child process as lines of JSON, and its answers come back as
lines. The client starts the process when it is needed, stops it when a request times out or is
aborted, and starts another one for the next request. All process instances of a client share the
pending table, the line buffer, the reference to the child, the cleanup of the isolated home and the
`#stopping` flag.

One step is one callback of the event loop, or what runs of an async function up to its next
suspension. A chunk of output is taken in by `data`, and its lines are processed by one `line` each,
since the listener of a notification may call the client between two lines. Timers carry no times:
`stopGoesOn` says whether the wait of a stop has timed out, and `cancel` is the timer of a request
or the `abort` event of its signal. Each unit of output is kept together with the instance that
wrote it, and a rejection together with the instance whose stop or exit it is due to; the client
itself never looks at either.
-/

namespace LiteHarness.ProcessRpc

/-! ## Errors and outcomes -/

/-- `ProcessRpcError`. -/
structure ProcessRpcError where
  code : JsString
  message : JsString
  data : JsValue := .undefined

/-- An error a request is rejected with. -/
inductive RpcFailure where
  | process (error : ProcessRpcError)
  /-- The `error` event of a child, a failed serialization, or the reason of an abort. -/
  | thrown (message : JsString)
  /-- `new AggregateError([error, stopError], …)`. -/
  | aggregate (error : RpcFailure) (stopError : ProcessRpcError) (message : JsString)

/-- A code unit of output, and the instance that wrote it. -/
abbrev Written := UInt16 × ℕ

/-- How the promise of a request settles. -/
inductive Settlement where
  /-- Resolved with the `result` of a line. -/
  | resolved (result : JsValue) (line : List Written)
  /-- Rejected, perhaps because an instance was stopped, exited or failed. -/
  | rejected (error : RpcFailure) (dueTo : Option ℕ)

/-! ## The host -/

/-- What the client takes from the language. -/
structure RpcHost where
  /-- `JSON.parse(line)`, where it does not throw. -/
  parse : JsString → Option JsValue
  /-- `String(value)`. -/
  text : JsValue → JsString

/-- The options the client reads, and whether the spec configures a home for the process. -/
structure RpcOptions where
  maxLineBytes : Option ℕ := none
  configuredHome : Bool := false

/-- `this.options.maxLineBytes ?? 4 * 1024 * 1024`. -/
def RpcOptions.max (O : RpcOptions) : ℕ := O.maxLineBytes.getD 4194304

/-! ## The state -/

/-- How a process has ended: `exitCode` or `signalCode` is set. -/
inductive ExitStatus where
  | code (code : ℤ)
  | signal (signal : JsString)
  deriving DecidableEq

/-- A process instance. -/
structure Instance where
  status : Option ExitStatus := none
  /-- `child.stdin.writable`. -/
  writable : Bool := true
  deriving DecidableEq

/-- `child.exitCode`. -/
def Instance.exitCode (c : Instance) : Option ℤ :=
  match c.status with
  | some (.code code) => some code
  | _ => none

/-- Where a call of `#stopChild` stands. -/
inductive StopStage where
  /-- It waits for the exit after `SIGTERM`. -/
  | waits
  /-- It waits for the exit after `SIGKILL`. -/
  | killed
  | done
  /-- The process could not be reaped. -/
  | failed
  deriving DecidableEq

/-- The call has come to its end. -/
def StopStage.over : StopStage → Bool
  | waits => false
  | killed => false
  | done => true
  | failed => true

/-- A call of `#stopChild`, with the child it has read. -/
structure StopOperation where
  child : Option ℕ
  stage : StopStage
  deriving DecidableEq

/-- A call of `#cancelAndStop` that waits for a stop. -/
structure Cancellation where
  id : ℕ
  error : RpcFailure
  operation : ℕ

/-- The error of a stop that could not reap its process. -/
def reapFailed : ProcessRpcError :=
  ⟨js "process_reap_failed", js "RPC process could not be reaped after SIGKILL", .undefined⟩

/-- What a cancelled request is rejected with, once the stop it waits for is over. -/
def Cancellation.outcome (c : Cancellation) : StopStage → RpcFailure
  | .failed =>
    .aggregate c.error reapFailed (js "RPC cancellation could not verify process reap")
  | _ => c.error

/-- `JsonLineRpcClient`. Process instances and stops are numbered in the order in which they begin;
the home of an instance has its number. -/
structure JsonLineRpcClient where
  pending : List ℕ := []
  child : Option ℕ := none
  stdout : List Written := []
  nextId : ℕ := 1
  stopping : Bool := false
  cleanupEnvironment : Option ℕ := none
  stopPromise : Option ℕ := none
  instances : List Instance := []
  operations : List StopOperation := []
  cancellations : List Cancellation := []
  /-- The requests that were written to an instance. -/
  sent : List (ℕ × ℕ) := []
  settlements : List (ℕ × Settlement) := []
  /-- The homes that were removed, and the instance on whose stop, exit or failure. -/
  released : List (ℕ × ℕ) := []

namespace JsonLineRpcClient

variable (R : RpcHost) (O : RpcOptions) (s : JsonLineRpcClient)

/-- The instance has ended. -/
def Ended (n : ℕ) : Prop := ∃ c, s.instances[n]? = some c ∧ c.status.isSome = true

instance (n : ℕ) : Decidable (s.Ended n) :=
  decidable_of_iff (((s.instances[n]?).any fun c ↦ c.status.isSome) = true) (by
    simp [Ended, Option.any_eq_true])

/-- `child.exitCode !== null`. -/
def hasExitCode (n : ℕ) : Bool := (s.instances[n]?).any fun c ↦ c.exitCode.isSome

/-- `get running`. -/
def running : Bool := s.child.any fun n ↦ !s.hasExitCode n

/-- `start`. The environment of the new instance replaces that of an earlier one. -/
def start : JsonLineRpcClient :=
  if s.running then s else
    { s with
      stopping := false
      cleanupEnvironment := some s.instances.length
      child := some s.instances.length
      instances := s.instances ++ [{}] }

/-- `#releaseEnvironment`, called for the sake of an instance. -/
def releaseEnvironment (dueTo : ℕ) : JsonLineRpcClient :=
  { s with
    cleanupEnvironment := none
    released := s.released ++
      if O.configuredHome then [] else s.cleanupEnvironment.toList.map fun home ↦ (home, dueTo) }

/-- `#settle`. -/
def settle (id : ℕ) (value : Settlement) : JsonLineRpcClient :=
  if id ∈ s.pending then
    { s with
      pending := s.pending.filter (· ≠ id)
      settlements := s.settlements ++ [(id, value)] }
  else s

/-- `#fail`. -/
def fail (error : RpcFailure) (dueTo : Option ℕ) : JsonLineRpcClient :=
  { s with
    pending := []
    settlements := s.settlements ++ s.pending.map fun id ↦ (id, .rejected error dueTo) }

/-! ## Stopping -/

/-- `stop` up to its first suspension, and the operation it waits for. -/
def stop : JsonLineRpcClient × ℕ :=
  match s.stopPromise with
  | some operation => (s, operation)
  | none =>
    let number := s.operations.length
    match s.child with
    | none =>
      -- There is nothing to stop: the operation has come to its end at once.
      ({ s with stopPromise := some number, operations := s.operations ++ [⟨none, .done⟩] }, number)
    | some n =>
      ({ s with
          stopping := true
          stopPromise := some number
          instances := s.instances.modify n fun c ↦ { c with writable := false }
          operations := s.operations ++ [⟨some n, .waits⟩] }, number)

/-- A stop moves to another stage. -/
def setStage (number : ℕ) (stage : StopStage) : JsonLineRpcClient :=
  { s with operations := s.operations.modify number fun operation ↦ { operation with stage } }

/-- The end of `#stopChild`. -/
def finishStop (number n : ℕ) : JsonLineRpcClient :=
  let s := { s with child := if s.child = some n then none else s.child }
  let s := s.releaseEnvironment O n
  let s := s.fail (.process ⟨js "process_stopped", js "RPC process stopped", .undefined⟩) (some n)
  s.setStage number .done

/-- `#stopChild` goes on after a wait. -/
def stopGoesOn (number : ℕ) (timedOut : Bool) : JsonLineRpcClient :=
  match s.operations[number]? with
  | some ⟨some n, stage⟩ =>
    if stage.over then s
    else if s.Ended n then s.finishStop O number n
    else if timedOut then s.setStage number (if stage = .waits then .killed else .failed)
    else s
  | _ => s

/-- The `finally` of the `stop` that has begun the operation. -/
def stopSettled (number : ℕ) : JsonLineRpcClient :=
  match s.operations[number]? with
  | some operation =>
    if operation.stage.over ∧ s.stopPromise = some number then { s with stopPromise := none } else s
  | none => s

/-- `#cancelAndStop` up to its suspension. -/
def cancelAndStop (id : ℕ) (error : RpcFailure) : JsonLineRpcClient :=
  if id ∈ s.pending then
    let r := { s with pending := s.pending.filter (· ≠ id) }.stop
    { r.1 with cancellations := r.1.cancellations ++ [⟨id, error, r.2⟩] }
  else s

/-- `#cancelAndStop` goes on. -/
def cancelGoesOn (id : ℕ) : JsonLineRpcClient :=
  match s.cancellations.find? fun c ↦ c.id = id with
  | some c =>
    match s.operations[c.operation]? with
    | some operation =>
      if operation.stage.over then
        { s with
          cancellations := s.cancellations.filter fun c ↦ c.id ≠ id
          settlements :=
            s.settlements ++ [(id, .rejected (c.outcome operation.stage) none)] }
      else s
    | none => s
  | none => s

/-! ## Sending -/

/-- `#send`: the instance written to, or what is thrown. -/
def send (encodes : Except JsString Unit) : Except RpcFailure ℕ :=
  let unavailable := RpcFailure.process
    ⟨js "process_unavailable", js "RPC process is unavailable", .undefined⟩
  match s.child with
  | none => .error unavailable
  | some n =>
    if s.hasExitCode n = false ∧ (s.instances[n]?).any Instance.writable = true then
      match encodes with
      | .error message => .error (.thrown message)
      | .ok _ => .ok n
    else .error unavailable

/-- A call of `request`. -/
structure RequestCall where
  /-- The signal is aborted before the call. -/
  aborted : Bool := false
  /-- The signal is aborted when the request has been registered, and why. -/
  abortedMeanwhile : Option RpcFailure := none
  /-- Whether `JSON.stringify` can write the message. -/
  encodes : Except JsString Unit := .ok ()

/-- `request` up to its suspension. -/
def request (call : RequestCall) : JsonLineRpcClient :=
  if call.aborted then s else
    let s := s.start
    let id := s.nextId
    let s := { s with nextId := s.nextId + 1, pending := s.pending ++ [id] }
    match call.abortedMeanwhile with
    | some error => s.cancelAndStop id error
    | none =>
      match s.send call.encodes with
      | .ok n => { s with sent := s.sent ++ [(id, n)] }
      | .error error => s.settle id (.rejected error none)

/-! ## Events of the child -/

/-- The `error` event. A process that could not be spawned has an exit code from then on. -/
def errored (n : ℕ) (exitCode : Option ℤ) (message : JsString) : JsonLineRpcClient :=
  let s := match exitCode with
    | some code =>
      { s with
        instances := s.instances.modify n fun _ ↦ ⟨some (.code code), false⟩ }
    | none => s
  (s.releaseEnvironment O n).fail (.thrown message) (some n)

/-- `RPC process exited (…)`. -/
def exitMessage (status : ExitStatus) (stderr : Option JsString) : JsString :=
  let (code, signal) := match status with
    | .code code => (intLiteral code, js "none")
    | .signal signal => (js "null", signal)
  js "RPC process exited (code=" ++ code ++ js ", signal=" ++ signal ++ js ")" ++
    (stderr.map fun text ↦ js ": " ++ text).getD []

/-- The `exit` event; `stderr` is what the client quotes of the error output, if there is any. -/
def exited (n : ℕ) (status : ExitStatus) (stderr : Option JsString) : JsonLineRpcClient :=
  let expected := s.stopping
  let s := { s with
    child := none
    instances := s.instances.modify n fun _ ↦ ⟨some status, false⟩ }
  let s := s.releaseEnvironment O n
  if expected then s
  else s.fail (.process ⟨js "process_exited", exitMessage status stderr, .undefined⟩) (some n)

/-! ## Output -/

/-- The line feed. -/
def lineFeed : UInt16 := 10

/-- The unit does not end a line. -/
def inLine (w : Written) : Bool := w.1 != lineFeed

/-- The first complete line, and what follows it. -/
def nextLine? (stdout : List Written) : Option (List Written × List Written) :=
  match stdout.dropWhile inLine with
  | [] => none
  | _ :: rest => some (stdout.takeWhile inLine, rest)

/-- `line.replace(/\r$/, "")`. -/
def withoutReturn (line : List Written) : List Written :=
  if line.getLast?.map Prod.fst = some 13 then line.dropLast else line

/-- The text of output. -/
def unitsOf (output : List Written) : JsString := output.map Prod.fst

/-- The output is oversized: every request is rejected, and the process is stopped. -/
def tooLarge (message : String) : JsonLineRpcClient :=
  ((s.fail (.process ⟨js "line_too_large", js message, .undefined⟩) none).stop).1

/-- `#acceptStdout` up to its loop. -/
def acceptStdout (n : ℕ) (chunk : JsString) : JsonLineRpcClient :=
  let s := { s with stdout := s.stdout ++ chunk.map fun u ↦ (u, n) }
  if O.max < byteLength (unitsOf s.stdout) ∧ lineFeed ∉ unitsOf s.stdout then
    s.tooLarge "RPC process emitted an oversized line"
  else s

/-- A property of an object, `undefined` where there is none. -/
def property (message : JsValue) (key : String) : JsValue :=
  match message with
  | .object fields => ((fields.find? fun f ↦ f.1 = js key).map Prod.snd).getD .undefined
  | _ => .undefined

/-- `key in message`. -/
def hasProperty (message : JsValue) (key : String) : Bool :=
  match message with
  | .object fields => fields.any fun f ↦ f.1 = js key
  | _ => false

/-- The value is truthy. -/
def isTruthy : JsValue → Bool
  | .undefined => false
  | .null => false
  | .bool b => b
  | .number n => match n.rat? with
    | some q => q ≠ 0
    | none => true
  | .string text => text ≠ []
  | _ => true

/-- `value ?? fallback`, as text. -/
def textOr (value : JsValue) (fallback : String) : JsString :=
  match value with
  | .undefined => js fallback
  | .null => js fallback
  | value => R.text value

/-- The error of a response. -/
def responseError (body : JsValue) : RpcFailure :=
  .process ⟨textOr R (property body "code") "rpc_error",
    textOr R (property body "message") "RPC request failed", property body "data"⟩

/-- The pending request a message answers. The keys of the table are numbers, so that an `id` that
is a string finds nothing. -/
def answered? (message : JsValue) : Option ℕ :=
  match property message "id" with
  | .number n =>
    if hasProperty message "result" ∨ hasProperty message "error" then
      s.pending.find? fun id ↦ n.rat? = some (id : ℚ)
    else none
  | _ => none

/-- `#acceptMessage`. Notifications and requests of the process leave the state as it is, and so
does a message that is no object. -/
def acceptMessage (line : List Written) : JsonLineRpcClient :=
  match R.parse (unitsOf line) with
  | none =>
    ((s.fail (.process
      ⟨js "invalid_json", js "RPC process emitted invalid JSON", .undefined⟩) none).stop).1
  | some message =>
    match s.answered? message with
    | none => s
    | some id =>
      let error := property message "error"
      if isTruthy error then s.settle id (.rejected (responseError R error) none)
      else s.settle id (.resolved (property message "result") line)

/-- One round of the loop of `#acceptStdout`, or the check after it. -/
def acceptLine : JsonLineRpcClient :=
  match nextLine? s.stdout with
  | some (complete, rest) =>
    let line := withoutReturn complete
    let s := { s with stdout := rest }
    if O.max < byteLength (unitsOf line) then s.tooLarge "RPC process emitted an oversized line"
    else if trim (unitsOf line) = [] then s
    else s.acceptMessage R line
  | none =>
    if O.max < byteLength (unitsOf s.stdout) then
      s.tooLarge "RPC process emitted an oversized partial line"
    else s

/-! ## Steps -/

/-- The instance has been spawned and has not ended. -/
def Alive (n : ℕ) : Prop := n < s.instances.length ∧ ¬s.Ended n

instance (n : ℕ) : Decidable (s.Alive n) := inferInstanceAs (Decidable (_ ∧ _))

end JsonLineRpcClient

open JsonLineRpcClient

/-- What can happen to a client. -/
inductive RpcInput where
  | start
  /-- A call of `notify`: what it writes changes nothing here. -/
  | notify
  | request (call : RequestCall)
  | stop
  /-- The timer of a request, or the abort of its signal. -/
  | cancel (id : ℕ) (error : RpcFailure)
  | stopGoesOn (number : ℕ) (timedOut : Bool)
  | stopSettled (number : ℕ)
  | cancelGoesOn (id : ℕ)
  | exited (n : ℕ) (status : ExitStatus) (stderr : Option JsString)
  | errored (n : ℕ) (exitCode : Option ℤ) (message : JsString)
  | data (n : ℕ) (chunk : JsString)
  | line
  /-- The process has closed its standard input. -/
  | unwritable (n : ℕ)

namespace JsonLineRpcClient

variable (R : RpcHost) (O : RpcOptions)

/-- One step. An instance ends once, and reports an error or writes only when it has been
spawned. -/
def step (s : JsonLineRpcClient) : RpcInput → JsonLineRpcClient
  | .start => s.start
  | .notify => s.start
  | .request call => s.request call
  | .stop => s.stop.1
  | .cancel id error => s.cancelAndStop id error
  | .stopGoesOn number timedOut => s.stopGoesOn O number timedOut
  | .stopSettled number => s.stopSettled number
  | .cancelGoesOn id => s.cancelGoesOn id
  | .exited n status stderr => if s.Alive n then s.exited O n status stderr else s
  | .errored n exitCode message => if s.Alive n then s.errored O n exitCode message else s
  | .data n chunk => if n < s.instances.length then s.acceptStdout O n chunk else s
  | .line => s.acceptLine R O
  | .unwritable n =>
    { s with instances := s.instances.modify n fun c ↦ { c with writable := false } }

/-- The client after a history. -/
def after (history : List RpcInput) : JsonLineRpcClient := history.foldl (step R O) {}

end JsonLineRpcClient

end LiteHarness.ProcessRpc
