import LiteHarness.Context.Blocks
import LiteHarness.Foundation.BoundedMemo
import LiteHarness.Foundation.Noninterference

/-!
# The compiler of context blocks

`ConservativeContextCompiler.compile` outputs the stored blocks, each as its text or as images. What
is rendered may come from a cache that tenants and models share. A call goes through the blocks
without interruption, up to the answers of the renderer; these come in any order, among the steps of
other calls.

The machine notes which blocks `put` accepted, and what was rendered for whom.
-/

namespace LiteHarness.Context

open Foundation

/-! ## Policies -/

/-- The policy of `ContextOptimizationGate`. -/
structure GatePolicy where
  enabled : Bool
  allowedApps : List JsString
  allowedModels : List JsString
  killedApps : List JsString := []
  killedModels : List JsString := []

/-- `allows`. -/
def GatePolicy.allows (gate : GatePolicy) (appId modelId : JsString) : Bool :=
  gate.enabled && gate.allowedApps.contains appId && gate.allowedModels.contains modelId &&
    !gate.killedApps.contains appId && !gate.killedModels.contains modelId

/-- The policy of a compiler: whether it has a gate, and a cache with it. -/
structure CompilerPolicy where
  enabledModels : List JsString
  gate : Option GatePolicy := none
  hasCache : Bool := false

/-- `scope`. -/
structure CompileScope where
  appId : JsString
  tenantId : JsString
  modelCapabilities : Option (List JsString) := none

/-- `mode`. -/
inductive CompileMode where
  | off
  | conservative
  deriving DecidableEq

/-- `mayRender`. -/
def mayRender (policy : CompilerPolicy) (modelId : JsString) (mode : CompileMode)
    (scope : Option CompileScope) : Bool :=
  mode = .conservative && policy.enabledModels.contains modelId &&
    (match scope with
    | none => false
    | some scope => scope.modelCapabilities.any fun capabilities ↦ capabilities.contains (js "vision")) &&
    (match policy.gate with
    | none => true
    | some gate =>
      match scope with
      | none => false
      | some scope => gate.allows scope.appId modelId)

/-- What may be rendered of the blocks. -/
def renderable (block : ContextBlock) : Bool :=
  block.lossyEligible && !block.sensitive && 1024 ≤ block.exactText.length &&
    (block.kind = .logs || block.kind = .memory)

/-! ## Outputs -/

/-- `representation` and `content`. -/
inductive Content where
  | text (content : JsString)
  | image (content : List JsString)
  deriving DecidableEq

/-- `RenderedContextBlock`, which always says that the exact text can be recovered. -/
structure RenderedContextBlock where
  id : JsString
  kind : ContextBlockKind
  content : Content
  nativeLabel : JsString
  deriving DecidableEq

/-- `asText`. -/
def asText (block : ContextBlock) : RenderedContextBlock :=
  ⟨block.id, block.kind, .text block.exactText, block.exactText⟩

/-- `opticalLabel`. -/
def opticalLabel (block : ContextBlock) : JsString :=
  let provenance := match truthy block.provenance with
    | some provenance => js " from " ++ provenance
    | none => []
  js "Optical context " ++ block.id ++ js " (" ++ block.kind.text ++ js ")" ++ provenance ++
    js ". Exact canonical text is retained for recovery."

/-- A block whose images are output. -/
def asImages (block : ContextBlock) (images : List JsString) : RenderedContextBlock :=
  ⟨block.id, block.kind, .image images, opticalLabel block⟩

/-- What the renderer answers are images. -/
def areImages (images : List JsString) : Bool :=
  !images.isEmpty && images.all fun image ↦ (js "data:image/").isPrefixOf image

variable (H : ContextHost)

/-- `contextCacheKey`. -/
def contextCacheKey (tenantId modelId : JsString) (block : ContextBlock) : JsString :=
  tenantId ++ 0 :: (modelId ++ 0 :: (block.id ++ 0 :: H.sha256 block.exactText))

/-! ## State -/

/-- Images, and what they were rendered for. -/
structure Rendering where
  tenantId : JsString
  modelId : JsString
  block : ContextBlock
  images : List JsString
  deriving DecidableEq

/-- A call of `compile`: the rows it read, the blocks in their order, and what is output of them so
far. -/
structure CompileCall where
  number : ℕ
  policy : CompilerPolicy
  modelId : JsString
  mode : CompileMode
  scope : Option CompileScope
  rows : List ContextRow
  blocks : List (ContextBlock × Option RenderedContextBlock)

/-- The store, the cache and the calls. -/
structure Contexts where
  rows : List ContextRow := []
  cache : List (JsString × Rendering) := []
  calls : List CompileCall := []
  accepted : List ContextBlock := []
  renderings : List Rendering := []

namespace Contexts

variable (W : Contexts)

/-- `get` of the cache, which makes an entry the newest. -/
def cached (cache : List (JsString × Rendering)) (key : JsString) :
    Option (List JsString) × List (JsString × Rendering) :=
  match Table.lookup Prod.fst key cache with
  | none => (none, cache)
  | some entry => (some entry.2.images, cache.filter (fun e ↦ e.1 ≠ key) ++ [entry])

/-- A block, up to the answer of the renderer. -/
def compileBlock (policy : CompilerPolicy) (modelId : JsString) (mode : CompileMode)
    (scope : Option CompileScope) (cache : List (JsString × Rendering)) (block : ContextBlock) :
    Option RenderedContextBlock × List (JsString × Rendering) :=
  if !mayRender policy modelId mode scope || !renderable block then (some (asText block), cache)
  else
    match scope with
    | some scope =>
      if policy.gate.isSome && policy.hasCache then
        match cached cache (contextCacheKey H scope.tenantId modelId block) with
        | (none, cache) => (none, cache)
        | (some images, cache) =>
          (some (if areImages images then asImages block images else asText block), cache)
      else (none, cache)
    | none => (none, cache)

/-- The blocks, one after the other. -/
def compileBlocks (policy : CompilerPolicy) (modelId : JsString) (mode : CompileMode)
    (scope : Option CompileScope) (cache : List (JsString × Rendering)) :
    List ContextBlock → List (ContextBlock × Option RenderedContextBlock) × List (JsString × Rendering)
  | [] => ([], cache)
  | block :: blocks =>
    let (output, cache) := compileBlock H policy modelId mode scope cache block
    let (outputs, cache) := compileBlocks policy modelId mode scope cache blocks
    ((block, output) :: outputs, cache)

/-- A call of `compile` starts. -/
def compile (policy : CompilerPolicy) (modelId : JsString) (mode : CompileMode)
    (scope : Option CompileScope) : Contexts :=
  let (blocks, cache) := compileBlocks H policy modelId mode scope W.cache (list H W.rows)
  { W with
    cache := cache
    calls := W.calls ++ [⟨W.calls.length, policy, modelId, mode, scope, W.rows, blocks⟩] }

/-- A block of a call is output. -/
def output (call : CompileCall) (i : ℕ) (block : ContextBlock) (o : RenderedContextBlock) :
    Contexts :=
  { W with
    calls := Table.update (fun c ↦ c.number = call.number)
      (fun _ ↦ { call with blocks := call.blocks.set i (block, some o) }) W.calls }

/-- `put` of the cache. -/
def store (maxEntries : ℕ) (call : CompileCall) (rendering : Rendering) : Contexts :=
  { W with
    renderings := W.renderings ++ [rendering]
    cache :=
      if call.policy.gate.isSome && call.policy.hasCache then
        Memo.enter maxEntries (contextCacheKey H rendering.tenantId rendering.modelId rendering.block)
          rendering W.cache
      else W.cache }

/-- The renderer answers, or throws. -/
def answer (maxEntries : ℕ) (call : CompileCall) (i : ℕ) (block : ContextBlock)
    (result : Option (List JsString)) : Contexts :=
  match result, call.scope with
  | some images, some scope =>
    if areImages images then
      (W.store H maxEntries call ⟨scope.tenantId, call.modelId, block, images⟩).output call i block
        (asImages block images)
    else W.output call i block (asText block)
  | _, _ => W.output call i block (asText block)

end Contexts

/-- What happens. -/
inductive ContextAction where
  | put (block : ContextBlock) (now : ℤ)
  | compile (policy : CompilerPolicy) (modelId : JsString) (mode : CompileMode)
      (scope : Option CompileScope)
  /-- The renderer answers for the block of a call, with a page or a list of pages, or throws. -/
  | answer (number i : ℕ) (result : Option (List JsString))

namespace Contexts

variable (maxEntries : ℕ) (W : Contexts)

/-- A call by its number. -/
def call? (number : ℕ) : Option CompileCall := Table.lookup CompileCall.number number W.calls

/-- One step. -/
def step : ContextAction → Contexts
  | .put block now =>
    match put H W.rows block now with
    | .error _ => W
    | .ok rows => { W with rows := rows, accepted := W.accepted ++ [block] }
  | .compile policy modelId mode scope => W.compile H policy modelId mode scope
  | .answer number i result =>
    match W.call? number with
    | none => W
    | some call =>
      match call.blocks[i]? with
      | some (block, none) => W.answer H maxEntries call i block result
      | _ => W

/-- A run. -/
def run (actions : List ContextAction) : Contexts := actions.foldl (step H maxEntries) W

/-! ## What is claimed of a run -/

/-- The first of the accepted blocks with its identifier. -/
def First (block : ContextBlock) : Prop :=
  W.accepted.find? (fun b ↦ b.id = block.id) = some block

/-- The images of a block were rendered from it, for the tenant and the model of the call. -/
def ObtainedFor (call : CompileCall) (block : ContextBlock) (o : RenderedContextBlock) : Prop :=
  ∃ scope ∈ call.scope, ∃ r ∈ W.renderings, r.tenantId = scope.tenantId ∧
    r.modelId = call.modelId ∧ r.block = block ∧ o = asImages block r.images

/-- **What a call outputs.** -/
structure SoundCall (call : CompileCall) : Prop where
  /-- There is an output for each block that was stored when the call began, in their order. -/
  listed : call.rows <+: W.rows ∧ call.blocks.map Prod.fst = list H call.rows
  /-- The text of a block is the first one that was accepted. -/
  exact : ∀ block ∈ call.blocks.map Prod.fst, ∃ b, W.First b ∧ b.id = block.id ∧
    b.exactText = block.exactText
  /-- A block is output as its text, unless it may be rendered in every respect. -/
  output : ∀ block o, (block, some o) ∈ call.blocks → o = asText block ∨
    (mayRender call.policy call.modelId call.mode call.scope = true ∧ renderable block = true ∧
      (∀ b ∈ W.accepted, b.id = block.id → b.lossyEligible = true ∧ b.sensitive = false) ∧
        W.ObtainedFor call block o)

/-- **What the store and the compiler are for.** -/
structure Sound : Prop where
  calls : ∀ call ∈ W.calls, W.SoundCall H call
  exact : ∀ block, W.First block → fetchExact H W.rows block.id = .ok block.exactText

/-! ## The condition -/

/-- A block that is accepted keeps its texts, and where its text is stored as one that may be
rendered, it may be rendered, too. -/
def OrderlyPut (block : ContextBlock) : Prop :=
  match row? H W.rows block.id with
  | none => H.Keeps block.id ∧ H.Keeps block.exactText
  | some row =>
    row.exactSha256 = H.sha256 block.exactText → H.Keeps block.id ∧
      (renderable (toBlock H row) = true → block.lossyEligible = true ∧ block.sensitive = false)

/-- What is rendered has the key of nothing that an earlier call rendered for another tenant, model
or block. -/
def OrderlyCompile (policy : CompilerPolicy) (modelId : JsString) (mode : CompileMode)
    (scope? : Option CompileScope) : Prop :=
  mayRender policy modelId mode scope? = true →
    ∀ scope ∈ scope?, ∀ block ∈ list H W.rows, renderable block = true →
      ∀ call ∈ W.calls, mayRender call.policy call.modelId call.mode call.scope = true →
        ∀ scope' ∈ call.scope, ∀ block' ∈ call.blocks.map Prod.fst, renderable block' = true →
          contextCacheKey H scope.tenantId modelId block =
              contextCacheKey H scope'.tenantId call.modelId block' →
            scope.tenantId = scope'.tenantId ∧ modelId = call.modelId ∧ block.id = block'.id

/-- **The condition on a step.** -/
def Orderly : ContextAction → Prop
  | .put block _ => block.id = [] ∨ block.exactText = [] ∨ W.OrderlyPut H block
  | .compile policy modelId mode scope => W.OrderlyCompile H policy modelId mode scope
  | .answer _ _ _ => True

end Contexts

end LiteHarness.Context
