import LiteHarness.Context.Compiler
import LiteHarness.Foundation.Suspension

/-!
# What is rendered may be

A row is never changed, so the blocks a call goes through are those of the rows of the first `put`s
(`Contexts.Inv.stored`). What is rendered is decided by the row alone; that the later `put`s agree
with it is the condition. An entry of the cache is found by its key, which says for whom it was
rendered as long as keys that are joined from different parts differ (`contextCacheKey_inj`).
-/

namespace LiteHarness.Context

open Foundation

variable {H : ContextHost}

/-! ## Keys -/

/-- The parts of a text before and behind its first separator. -/
theorem append_zero_inj {a b s t : JsString} (ha : 0 ∉ a) (hb : 0 ∉ b)
    (h : a ++ 0 :: s = b ++ 0 :: t) : a = b ∧ s = t := by
  induction a generalizing b with
  | nil =>
    rcases b with _ | ⟨v, b⟩
    · exact ⟨rfl, (List.cons.inj h).2⟩
    · exact absurd (List.mem_cons.mpr (Or.inl (List.cons.inj h).1)) hb
  | cons u a ih =>
    rcases b with _ | ⟨v, b⟩
    · exact absurd (List.mem_cons.mpr (Or.inl (List.cons.inj h).1.symm)) ha
    · obtain ⟨rfl, htail⟩ := List.cons.inj h
      obtain ⟨rfl, rfl⟩ := ih (fun hmem ↦ ha (List.mem_cons_of_mem _ hmem))
        (fun hmem ↦ hb (List.mem_cons_of_mem _ hmem)) htail
      exact ⟨rfl, rfl⟩

/-- **Tenants and models without a separator have keys of their own**, as digests have one length.
-/
theorem contextCacheKey_inj {tenantId tenantId' modelId modelId' : JsString}
    {block block' : ContextBlock} (ht : 0 ∉ tenantId) (ht' : 0 ∉ tenantId') (hm : 0 ∉ modelId)
    (hm' : 0 ∉ modelId')
    (hlength : (H.sha256 block.exactText).length = (H.sha256 block'.exactText).length)
    (h : contextCacheKey H tenantId modelId block = contextCacheKey H tenantId' modelId' block') :
    tenantId = tenantId' ∧ modelId = modelId' ∧ block.id = block'.id := by
  obtain ⟨htenant, h⟩ := append_zero_inj ht ht' h
  obtain ⟨hmodel, h⟩ := append_zero_inj hm hm' h
  exact ⟨htenant, hmodel, (List.append_inj' h (by rw [List.length_cons, List.length_cons, hlength])).1⟩

namespace Contexts

variable {W W' : Contexts} {call : CompileCall} {block : ContextBlock}

/-! ## The blocks of a call -/

section Compile

variable {policy : CompilerPolicy} {modelId : JsString} {mode : CompileMode}
  {scope : Option CompileScope} {cache : List (JsString × Rendering)}

/-- Reading the cache changes the order of its entries only. -/
theorem mem_of_mem_cached (cache : List (JsString × Rendering)) (key : JsString) {e : JsString × Rendering}
    (h : e ∈ (cached cache key).2) : e ∈ cache := by
  rw [cached] at h
  rcases hfound : Table.lookup Prod.fst key cache with _ | entry
  · rw [hfound] at h
    exact h
  · rw [hfound] at h
    rcases List.mem_append.mp h with hrest | hlast
    · exact (List.mem_filter.mp hrest).1
    · rw [List.mem_singleton.mp hlast]
      exact Table.mem_of_lookup hfound

/-- What is found in the cache is an entry with the key. -/
theorem cached_eq_some (cache : List (JsString × Rendering)) (key : JsString)
    {images : List JsString} (h : (cached cache key).1 = some images) :
    ∃ r, (key, r) ∈ cache ∧ r.images = images := by
  rw [cached] at h
  rcases hfound : Table.lookup Prod.fst key cache with _ | entry
  · rw [hfound] at h
    exact absurd h nofun
  · rw [hfound] at h
    refine ⟨entry.2, ?_, Option.some.inj h⟩
    rw [← Table.key_of_lookup hfound]
    exact Table.mem_of_lookup hfound

/-- What is output of a block before the renderer answers. -/
def Early (H : ContextHost) (policy : CompilerPolicy) (modelId : JsString) (mode : CompileMode)
    (scope? : Option CompileScope) (cache : List (JsString × Rendering)) (block : ContextBlock)
    (o? : Option RenderedContextBlock) : Prop :=
  o? = some (asText block) ∨ mayRender policy modelId mode scope? = true ∧ renderable block = true ∧
    ∀ o ∈ o?, o = asText block ∨ ∃ scope ∈ scope?, ∃ r,
      (contextCacheKey H scope.tenantId modelId block, r) ∈ cache ∧ o = asImages block r.images

/-- A block that may not be rendered is output as its text. -/
theorem compileBlock_early (block : ContextBlock) :
    Early H policy modelId mode scope cache block
        (compileBlock H policy modelId mode scope cache block).1 ∧
      ∀ e ∈ (compileBlock H policy modelId mode scope cache block).2, e ∈ cache := by
  by_cases hnot : (!mayRender policy modelId mode scope || !renderable block) = true
  · rw [compileBlock.eq_def, if_pos hnot]
    exact ⟨Or.inl rfl, fun _ he ↦ he⟩
  rw [compileBlock.eq_def, if_neg hnot]
  rw [Bool.or_eq_true, not_or, Bool.not_eq_true', Bool.not_eq_true', Bool.not_eq_false,
    Bool.not_eq_false] at hnot
  obtain ⟨hmay, hrenderable⟩ := hnot
  have hpending : ∀ c : List (JsString × Rendering),
      Early H policy modelId mode scope c block none := fun c ↦ Or.inr ⟨hmay, hrenderable, nofun⟩
  rcases scope with _ | scope
  · exact ⟨hpending cache, fun _ he ↦ he⟩
  dsimp only
  split_ifs
  swap
  · exact ⟨hpending cache, fun _ he ↦ he⟩
  have hmem := fun e ↦ mem_of_mem_cached cache
    (contextCacheKey H scope.tenantId modelId block) (e := e)
  have hfound : ∀ images, (cached cache (contextCacheKey H scope.tenantId modelId block)).1 =
      some images → ∃ r, (contextCacheKey H scope.tenantId modelId block, r) ∈ cache ∧
        r.images = images := fun images h ↦ cached_eq_some cache _ h
  generalize cached cache (contextCacheKey H scope.tenantId modelId block) = result at hmem hfound ⊢
  obtain ⟨_ | images, cache'⟩ := result
  · exact ⟨hpending cache, hmem⟩
  · refine ⟨Or.inr ⟨hmay, hrenderable, fun o ho ↦ ?_⟩, hmem⟩
    obtain rfl := Option.some.inj ho
    obtain ⟨r, hr, rfl⟩ := hfound images rfl
    split_ifs
    · exact Or.inr ⟨scope, rfl, r, hr, rfl⟩
    · exact Or.inl rfl

theorem Early.mono {cache' : List (JsString × Rendering)} {o? : Option RenderedContextBlock}
    (h : Early H policy modelId mode scope cache block o?) (hsub : ∀ e ∈ cache, e ∈ cache') :
    Early H policy modelId mode scope cache' block o? := by
  rcases h with htext | ⟨hmay, hrenderable, houtput⟩
  · exact Or.inl htext
  · refine Or.inr ⟨hmay, hrenderable, fun o ho ↦ (houtput o ho).imp id ?_⟩
    rintro ⟨scope, hscope, r, hr, rfl⟩
    exact ⟨scope, hscope, r, hsub _ hr, rfl⟩

variable (H policy modelId mode scope cache) in
/-- **The blocks of a call**, by induction on them. -/
theorem compileBlocks_early (blocks : List ContextBlock) :
    (compileBlocks H policy modelId mode scope cache blocks).1.map Prod.fst = blocks ∧
      (∀ block o?, (block, o?) ∈ (compileBlocks H policy modelId mode scope cache blocks).1 →
        Early H policy modelId mode scope cache block o?) ∧
      ∀ e ∈ (compileBlocks H policy modelId mode scope cache blocks).2, e ∈ cache := by
  induction blocks generalizing cache with
  | nil => exact ⟨rfl, fun _ _ h ↦ absurd h List.not_mem_nil, fun _ h ↦ h⟩
  | cons block blocks ih =>
    have hblock : Early H policy modelId mode scope cache block
        (compileBlock H policy modelId mode scope cache block).1 ∧
      ∀ e ∈ (compileBlock H policy modelId mode scope cache block).2, e ∈ cache :=
      compileBlock_early block
    rw [compileBlocks]
    generalize compileBlock H policy modelId mode scope cache block = result at hblock ⊢
    obtain ⟨o?, cache'⟩ := result
    obtain ⟨hearly, hcache⟩ := hblock
    obtain ⟨hblocks, houtputs, hcache'⟩ := ih cache'
    refine ⟨congrArg (block :: ·) hblocks, fun b o hmem ↦ ?_, fun e he ↦ hcache e (hcache' e he)⟩
    rcases List.mem_cons.mp hmem with heq | hmem
    · obtain ⟨rfl, rfl⟩ := Prod.mk.inj heq
      exact hearly
    · exact (houtputs b o hmem).mono hcache

end Compile

/-! ## The invariant -/

/-- What is output of a block of a call, or may be. -/
def OutputOk (W : Contexts) (call : CompileCall) (block : ContextBlock)
    (o? : Option RenderedContextBlock) : Prop :=
  o? = some (asText block) ∨
    mayRender call.policy call.modelId call.mode call.scope = true ∧ renderable block = true ∧
      ∀ o ∈ o?, o = asText block ∨ W.ObtainedFor call block o

/-- A call against the store. -/
structure CallOk (H : ContextHost) (W : Contexts) (call : CompileCall) : Prop where
  listed : call.rows <+: W.rows ∧ call.blocks.map Prod.fst = list H call.rows
  outputs : ∀ block o?, (block, o?) ∈ call.blocks → W.OutputOk call block o?

/-- An entry of the cache: images that a call rendered, under the key of what they are of. -/
structure EntryOk (H : ContextHost) (W : Contexts) (e : JsString × Rendering) : Prop where
  key : e.1 = contextCacheKey H e.2.tenantId e.2.modelId e.2.block
  rendered : e.2 ∈ W.renderings
  renderable : renderable e.2.block = true
  call : ∃ call ∈ W.calls, mayRender call.policy call.modelId call.mode call.scope = true ∧
    call.modelId = e.2.modelId ∧ e.2.block ∈ call.blocks.map Prod.fst ∧
      ∃ scope ∈ call.scope, scope.tenantId = e.2.tenantId

/-- **The invariant.** -/
structure Inv (H : ContextHost) (W : Contexts) : Prop where
  ids : (W.rows.map ContextRow.id).Nodup
  /-- A row is that of the first accepted block. -/
  stored : ∀ row ∈ W.rows, ∃ block now, W.First block ∧ row = newRow H block now ∧
    H.Keeps block.id ∧ H.Keeps block.exactText
  /-- What was accepted agrees with its row. -/
  accepted : ∀ block ∈ W.accepted, H.Keeps block.id ∧ ∃ row ∈ W.rows, row.id = H.bind block.id ∧
    (renderable (toBlock H row) = true → block.lossyEligible = true ∧ block.sensitive = false)
  numbers : W.calls.map CompileCall.number = List.range W.calls.length
  calls : ∀ call ∈ W.calls, CallOk H W call
  cache : ∀ e ∈ W.cache, EntryOk H W e

theorem inv_init (H : ContextHost) : Inv H {} where
  ids := List.nodup_nil
  stored _ h := absurd h List.not_mem_nil
  accepted _ h := absurd h List.not_mem_nil
  numbers := rfl
  calls _ h := absurd h List.not_mem_nil
  cache _ h := absurd h List.not_mem_nil

theorem mem_list {rows : List ContextRow} {block : ContextBlock} :
    block ∈ list H rows ↔ ∃ row ∈ rows, toBlock H row = block := by
  rw [list, List.mem_map]
  simp only [List.mem_insertionSort]

/-- A listed block has the identifier of its row. -/
theorem Inv.bind_id (h : Inv H W) {row : ContextRow} (hrow : row ∈ W.rows) :
    H.bind (toBlock H row).id = row.id := by
  obtain ⟨block, now, -, rfl, hid, -⟩ := h.stored row hrow
  exact congrArg H.bind hid

/-- **Rows are told apart by the identifiers of their blocks.** -/
theorem Inv.eq_of_id (h : Inv H W) {block block' : ContextBlock} (hblock : block ∈ list H W.rows)
    (hblock' : block' ∈ list H W.rows) (hid : block.id = block'.id) : block = block' := by
  obtain ⟨row, hrow, rfl⟩ := mem_list.mp hblock
  obtain ⟨row', hrow', rfl⟩ := mem_list.mp hblock'
  have hsame : row.id = row'.id := by rw [← h.bind_id hrow, ← h.bind_id hrow', hid]
  rw [List.inj_on_of_nodup_map h.ids hrow hrow' hsame]

/-- The blocks of an earlier call are still listed. -/
theorem Inv.mem_list_of_call (h : Inv H W) (hcall : call ∈ W.calls)
    (hblock : block ∈ call.blocks.map Prod.fst) : block ∈ list H W.rows := by
  obtain ⟨hrows, hblocks⟩ := (h.calls call hcall).listed
  rw [hblocks] at hblock
  obtain ⟨row, hrow, rfl⟩ := mem_list.mp hblock
  exact mem_list.mpr ⟨row, hrows.subset hrow, rfl⟩

/-! ## What stays known -/

theorem OutputOk.mono {o? : Option RenderedContextBlock} (h : W.OutputOk call block o?)
    (hrenderings : W.renderings ⊆ W'.renderings) : W'.OutputOk call block o? := by
  refine h.imp id fun ⟨hmay, hrenderable, houtput⟩ ↦ ⟨hmay, hrenderable, fun o ho ↦ ?_⟩
  refine (houtput o ho).imp id ?_
  rintro ⟨scope, hscope, r, hr, hrest⟩
  exact ⟨scope, hscope, r, hrenderings hr, hrest⟩

theorem CallOk.mono (h : CallOk H W call) (hrows : W.rows <+: W'.rows)
    (hrenderings : W.renderings ⊆ W'.renderings) : CallOk H W' call where
  listed := ⟨h.listed.1.trans hrows, h.listed.2⟩
  outputs block o? hmem := (h.outputs block o? hmem).mono hrenderings

theorem EntryOk.mono {e : JsString × Rendering} (h : EntryOk H W e)
    (hrenderings : W.renderings ⊆ W'.renderings)
    (hcalls : ∀ call ∈ W.calls, ∃ call' ∈ W'.calls, call'.policy = call.policy ∧
      call'.modelId = call.modelId ∧ call'.mode = call.mode ∧ call'.scope = call.scope ∧
        call'.blocks.map Prod.fst = call.blocks.map Prod.fst) : EntryOk H W' e where
  key := h.key
  rendered := hrenderings h.rendered
  renderable := h.renderable
  call := by
    obtain ⟨call, hcall, hmay, hmodel, hblock, hscope⟩ := h.call
    obtain ⟨call', hcall', hpolicy, hmodel', hmode, hscope', hblocks⟩ := hcalls call hcall
    refine ⟨call', hcall', ?_, hmodel'.trans hmodel, hblocks ▸ hblock, hscope' ▸ hscope⟩
    rw [hpolicy, hmodel', hmode, hscope']
    exact hmay

/-! ## Putting a block -/

theorem first_append {b b' : ContextBlock} (h : W.First b) {accepted : List ContextBlock}
    (haccepted : accepted = W.accepted ++ [b']) : accepted.find? (fun c ↦ c.id = b.id) = some b := by
  rw [haccepted, List.find?_append, show W.accepted.find? (fun c ↦ c.id = b.id) = some b from h]
  rfl

theorem Inv.put (h : Inv H W) {now : ℤ} {rows : List ContextRow}
    (horderly : block.id = [] ∨ block.exactText = [] ∨ W.OrderlyPut H block)
    (hput : Context.put H W.rows block now = .ok rows) :
    Inv H { W with rows := rows, accepted := W.accepted ++ [block] } := by
  rw [Context.put] at hput
  split_ifs at hput with hempty
  have hok : W.OrderlyPut H block := by
    rcases horderly with hid | htext | hok
    · exact absurd (Or.inl hid) hempty
    · exact absurd (Or.inr htext) hempty
    · exact hok
  rw [OrderlyPut] at hok
  rcases hrow : row? H W.rows block.id with _ | row
  · -- The first block with its identifier.
    rw [hrow] at hput hok
    obtain rfl := Except.ok.inj hput
    have hfresh : ∀ row ∈ W.rows, row.id ≠ H.bind block.id := fun row hmem ↦
      Table.lookup_eq_none_iff.mp hrow row hmem
    have hnone : ∀ b ∈ W.accepted, b.id ≠ block.id := by
      intro b hb heq
      obtain ⟨-, row, hmem, hid, -⟩ := h.accepted b hb
      exact hfresh row hmem (heq ▸ hid)
    have hfirst : (W.accepted ++ [block]).find? (fun b ↦ b.id = block.id) = some block := by
      rw [List.find?_append, List.find?_eq_none.mpr fun b hb ↦ by simpa using hnone b hb,
        Option.none_or, List.find?_singleton, if_pos (decide_eq_true rfl)]
    refine ⟨?_, fun row hmem ↦ ?_, fun b hb ↦ ?_, h.numbers, fun call hcall ↦ ?_, fun e he ↦ ?_⟩
    · exact Table.nodup_append_fresh h.ids fun r hr heq ↦ hfresh r hr heq
    · rcases List.mem_append.mp hmem with hold | hnew
      · obtain ⟨b, now', hb, hrest⟩ := h.stored row hold
        exact ⟨b, now', first_append hb rfl, hrest⟩
      · exact ⟨block, now, hfirst, List.mem_singleton.mp hnew, hok⟩
    · rcases List.mem_append.mp hb with hold | hnew
      · obtain ⟨hid, row, hmem, hrest⟩ := h.accepted b hold
        exact ⟨hid, row, List.mem_append_left _ hmem, hrest⟩
      · obtain rfl := List.mem_singleton.mp hnew
        refine ⟨hok.1, newRow H b now, List.mem_append_right _ (List.mem_singleton.mpr rfl), rfl,
          fun hrenderable ↦ ?_⟩
        rw [renderable, Bool.and_eq_true, Bool.and_eq_true, Bool.and_eq_true, Bool.not_eq_true']
          at hrenderable
        exact hrenderable.1.1
    · exact (h.calls call hcall).mono (List.prefix_append _ _) (List.Subset.refl _)
    · exact (h.cache e he).mono (List.Subset.refl _)
        fun call hcall ↦ ⟨call, hcall, rfl, rfl, rfl, rfl, rfl⟩
  · -- A block with the text that is stored.
    rw [hrow] at hput hok
    dsimp only at hput hok
    split_ifs at hput with hdigest
    obtain rfl := Except.ok.inj hput
    obtain ⟨hid, hagrees⟩ := hok (not_not.mp hdigest)
    have hmem : row ∈ W.rows := Table.mem_of_lookup hrow
    refine ⟨h.ids, fun row hmem ↦ ?_, fun b hb ↦ ?_, h.numbers, fun call hcall ↦ ?_, fun e he ↦ ?_⟩
    · obtain ⟨b, now', hb, hrest⟩ := h.stored row hmem
      exact ⟨b, now', first_append hb rfl, hrest⟩
    · rcases List.mem_append.mp hb with hold | hnew
      · exact h.accepted b hold
      · obtain rfl := List.mem_singleton.mp hnew
        exact ⟨hid, row, hmem, Table.key_of_lookup hrow, hagrees⟩
    · exact (h.calls call hcall).mono (List.prefix_rfl) (List.Subset.refl _)
    · exact (h.cache e he).mono (List.Subset.refl _)
        fun call hcall ↦ ⟨call, hcall, rfl, rfl, rfl, rfl, rfl⟩

/-! ## Compiling -/

theorem Inv.compile (h : Inv H W) {policy : CompilerPolicy} {modelId : JsString} {mode : CompileMode}
    {scope : Option CompileScope} (horderly : W.OrderlyCompile H policy modelId mode scope) :
    Inv H (W.compile H policy modelId mode scope) := by
  obtain ⟨hblocks, houtputs, hcache⟩ :=
    compileBlocks_early H policy modelId mode scope W.cache (list H W.rows)
  rw [Contexts.compile]
  generalize compileBlocks H policy modelId mode scope W.cache (list H W.rows) = result
    at hblocks houtputs hcache
  obtain ⟨blocks, cache⟩ := result
  dsimp only at hblocks houtputs hcache ⊢
  have hentry : ∀ e ∈ cache, EntryOk H { W with
      cache := cache
      calls := W.calls ++ [⟨W.calls.length, policy, modelId, mode, scope, W.rows, blocks⟩] } e :=
    fun e he ↦ (h.cache e (hcache e he)).mono (List.Subset.refl _)
      fun call hcall ↦ ⟨call, List.mem_append_left _ hcall, rfl, rfl, rfl, rfl, rfl⟩
  refine ⟨h.ids, h.stored, h.accepted, ?_, fun call hcall ↦ ?_, hentry⟩
  · rw [List.map_append, h.numbers, List.length_append, List.length_singleton, List.range_succ]
    rfl
  rcases List.mem_append.mp hcall with hold | hnew
  · exact (h.calls call hold).mono List.prefix_rfl (List.Subset.refl _)
  · obtain rfl := List.mem_singleton.mp hnew
    refine ⟨⟨List.prefix_rfl, hblocks⟩, fun block o? hmem ↦ ?_⟩
    have hlisted : block ∈ list H W.rows := hblocks ▸ List.mem_map_of_mem (f := Prod.fst) hmem
    rcases houtputs block o? hmem with htext | ⟨hmay, hrenderable, houtput⟩
    · exact Or.inl htext
    · refine Or.inr ⟨hmay, hrenderable, fun o ho ↦ (houtput o ho).imp id ?_⟩
      rintro ⟨scope', hscope, r, hr, rfl⟩
      -- The entry was made by an earlier call, for the same tenant, model and block.
      have hold := h.cache _ hr
      obtain ⟨call, hcall, hmay', hmodel, hblock, scope'', hscope', htenant⟩ := hold.call
      have hkey : contextCacheKey H scope'.tenantId modelId block =
          contextCacheKey H scope''.tenantId call.modelId r.block := by
        rw [htenant, hmodel]
        exact hold.key
      obtain ⟨htenant', hmodel', hid⟩ := horderly hmay scope' hscope block hlisted hrenderable call
        hcall hmay' scope'' hscope' r.block hblock hold.renderable hkey
      have hsame : block = r.block := h.eq_of_id hlisted (h.mem_list_of_call hcall hblock) hid
      exact ⟨scope', hscope, r, hold.rendered, (htenant'.trans htenant).symm,
        (hmodel'.trans hmodel).symm, hsame.symm, rfl⟩

/-! ## The renderer answers -/

theorem map_fst_set {α β : Type*} {blocks : List (α × β)} {i : ℕ} {a : α} {b : β}
    (h : blocks[i]? = some (a, b)) (b' : β) :
    (blocks.set i (a, b')).map Prod.fst = blocks.map Prod.fst := by
  refine List.ext_getElem? fun j ↦ ?_
  rw [List.getElem?_map, List.getElem?_map]
  by_cases hj : i = j
  · subst hj
    rw [List.getElem?_set_self (List.getElem?_eq_some_iff.mp h).1, h]
    rfl
  · rw [List.getElem?_set_ne hj]

/-- A block of a call is output. -/
theorem Inv.output (h : Inv H W) (hcall : call ∈ W.calls) {i : ℕ}
    (hi : call.blocks[i]? = some (block, none)) {o : RenderedContextBlock}
    (ho : W.OutputOk call block (some o)) : Inv H (W.output call i block o) := by
  have hblocks : (call.blocks.set i (block, some o)).map Prod.fst = call.blocks.map Prod.fst :=
    map_fst_set hi _
  refine ⟨h.ids, h.stored, h.accepted, ?_, fun c hc ↦ ?_, fun e he ↦ (h.cache e he).mono
    (List.Subset.refl _) fun c hc ↦ ?_⟩
  · have hsame : (W.output call i block o).calls.map CompileCall.number =
        W.calls.map CompileCall.number := by
      rw [Contexts.output, Table.update, List.map_map]
      refine List.map_congr_left fun c _ ↦ ?_
      rw [Function.comp_apply]
      split_ifs with hnumber
      · exact (of_decide_eq_true hnumber).symm
      · rfl
    have hlength : (W.output call i block o).calls.length = W.calls.length :=
      Table.update_length _ _ _
    rw [hsame, hlength]
    exact h.numbers
  · obtain ⟨c₀, hc₀, rfl⟩ := Table.mem_update.mp hc
    split_ifs
    · obtain ⟨hlisted, houtputs⟩ := h.calls call hcall
      refine ⟨⟨hlisted.1, hblocks.trans hlisted.2⟩, fun b o? hmem ↦ ?_⟩
      rcases List.mem_or_eq_of_mem_set hmem with hold | hnew
      · exact houtputs b o? hold
      · obtain ⟨rfl, rfl⟩ := Prod.mk.inj hnew
        exact ho
    · exact (h.calls c₀ hc₀).mono List.prefix_rfl (List.Subset.refl _)
  · by_cases hnumber : c.number = call.number
    · obtain rfl : c = call := List.inj_on_of_nodup_map (h.numbers ▸ List.nodup_range) hc hcall hnumber
      exact ⟨_, Table.mem_update.mpr ⟨c, hc, if_pos (decide_eq_true rfl)⟩, rfl, rfl, rfl, rfl, hblocks⟩
    · exact ⟨c, Table.mem_update.mpr ⟨c, hc, if_neg (by simpa using hnumber)⟩, rfl, rfl, rfl, rfl, rfl⟩

/-- What was rendered is kept for the calls that follow. -/
theorem Inv.store (h : Inv H W) {maxEntries : ℕ} {r : Rendering}
    (hentry : ∀ W' : Contexts, W'.calls = W.calls → r ∈ W'.renderings →
      EntryOk H W' (contextCacheKey H r.tenantId r.modelId r.block, r)) :
    Inv H (W.store H maxEntries call r) := by
  have hsub : W.renderings ⊆ W.renderings ++ [r] := List.subset_append_left _ _
  refine ⟨h.ids, h.stored, h.accepted, h.numbers,
    fun c hc ↦ (h.calls c hc).mono List.prefix_rfl hsub, fun e he ↦ ?_⟩
  have hold : e ∈ W.cache → EntryOk H (W.store H maxEntries call r) e := fun he ↦
    (h.cache e he).mono hsub fun c hc ↦ ⟨c, hc, rfl, rfl, rfl, rfl, rfl⟩
  rw [Contexts.store] at he
  dsimp only at he
  split_ifs at he
  · rcases Memo.mem_enter he with he | rfl
    · exact hold he
    · exact hentry _ rfl (List.mem_append_right _ (List.mem_singleton.mpr rfl))
  · exact hold he

theorem Inv.answer (h : Inv H W) {maxEntries : ℕ} (hcall : call ∈ W.calls) {i : ℕ}
    (hi : call.blocks[i]? = some (block, none)) (result : Option (List JsString)) :
    Inv H (W.answer H maxEntries call i block result) := by
  have htext : Inv H (W.output call i block (asText block)) := h.output hcall hi (Or.inl rfl)
  have hblock : (block, none) ∈ call.blocks := List.mem_of_getElem? hi
  obtain ⟨hmay, hrenderable, -⟩ := ((h.calls call hcall).outputs block none hblock).resolve_left nofun
  rcases result with _ | images
  · exact htext
  rw [Contexts.answer.eq_def]
  rcases hscope : call.scope with _ | scope
  · exact htext
  dsimp only
  split_ifs
  · have hstored : Inv H (W.store H maxEntries call ⟨scope.tenantId, call.modelId, block, images⟩) :=
      h.store fun W' hcalls hr ↦ ⟨rfl, hr, hrenderable, call, hcalls ▸ hcall, hmay, rfl,
        List.mem_map_of_mem (f := Prod.fst) hblock, scope, hscope, rfl⟩
    refine hstored.output hcall hi (Or.inr ⟨hmay, hrenderable, fun o ho ↦ Or.inr ?_⟩)
    obtain rfl := Option.some.inj ho
    exact ⟨scope, hscope, _, List.mem_append_right _ (List.mem_singleton.mpr rfl), rfl, rfl, rfl, rfl⟩
  · exact htext

/-! ## Runs -/

theorem Inv.step (h : Inv H W) {maxEntries : ℕ} {a : ContextAction} (ha : W.Orderly H a) :
    Inv H (W.step H maxEntries a) := by
  rcases a with ⟨block, now⟩ | ⟨policy, modelId, mode, scope⟩ | ⟨number, i, result⟩
  · rw [Contexts.step]
    rcases hput : Context.put H W.rows block now with e | rows
    · exact h
    · exact h.put ha hput
  · exact h.compile ha
  · rw [Contexts.step]
    rcases hcall : W.call? number with _ | call
    · exact h
    dsimp only
    split
    · rename_i hi
      exact h.answer (Table.mem_of_lookup hcall) hi result
    · exact h

/-- What the invariant says of the outputs and of the exact texts. -/
theorem Inv.sound (h : Inv H W) : W.Sound H where
  calls call hcall := by
    have hok := h.calls call hcall
    refine ⟨hok.listed, fun block hblock ↦ ?_, fun block o hmem ↦ ?_⟩
    · obtain ⟨row, hrow, rfl⟩ := mem_list.mp (h.mem_list_of_call hcall hblock)
      obtain ⟨b, now, hfirst, rfl, hid, htext⟩ := h.stored row hrow
      exact ⟨b, hfirst, hid.symm, htext.symm⟩
    · rcases hok.outputs block (some o) hmem with htext | ⟨hmay, hrenderable, houtput⟩
      · exact Or.inl (Option.some.inj htext)
      · refine (houtput o rfl).imp id fun hobtained ↦ ⟨hmay, hrenderable, fun b hb hid ↦ ?_, hobtained⟩
        have hlisted := h.mem_list_of_call hcall (List.mem_map_of_mem (f := Prod.fst) hmem)
        obtain ⟨row, hrow, rfl⟩ := mem_list.mp hlisted
        obtain ⟨-, row', hrow', hrowid, hagrees⟩ := h.accepted b hb
        have hsame : row'.id = row.id := by rw [hrowid, hid, h.bind_id hrow]
        obtain rfl := List.inj_on_of_nodup_map h.ids hrow' hrow hsame
        exact hagrees hrenderable
  exact block hfirst := by
    have hmem : block ∈ W.accepted := List.mem_of_find?_eq_some hfirst
    obtain ⟨-, row, hrow, hid, -⟩ := h.accepted block hmem
    have hlookup : row? H W.rows block.id = some row := by
      rw [row?, ← hid]
      exact Table.lookup_of_mem h.ids hrow
    obtain ⟨b, now, hb, rfl, hkeepsId, hkeeps⟩ := h.stored row hrow
    -- The block of the row is the first one, as both keep their identifiers.
    have hsame : b.id = block.id := by
      have hbind : H.bind b.id = H.bind block.id := hid
      rw [← hkeepsId, hbind, (h.accepted block hmem).1]
    have hfirst' : W.accepted.find? (fun c ↦ c.id = b.id) = some b := hb
    rw [hsame, show W.accepted.find? (fun c ↦ c.id = block.id) = some block from hfirst] at hfirst'
    obtain rfl := Option.some.inj hfirst'
    rw [fetchExact, hlookup]
    exact congrArg Except.ok hkeeps

/-- **What is rendered may be**: in every run whose steps are orderly, each call has one output for
each block, exact unless everything that was accepted under its identifier may be rendered, the
images were rendered for the tenant, the model and the text, and exact texts are the first ones. -/
theorem sound_of_agreeing (maxEntries : ℕ) (actions : List ContextAction)
    (h : Throughout (step H maxEntries) (Orderly H) {} actions) :
    (Contexts.run H maxEntries {} actions).Sound H :=
  (Throughout.induction (p := Inv H) (fun _ _ hinv ha ↦ hinv.step ha) (inv_init H) h).sound

/-! ## A block of logs -/

instance (block : ContextBlock) : Decidable (W.OrderlyPut H block) :=
  match h : row? H W.rows block.id with
  | none => decidable_of_iff (H.Keeps block.id ∧ H.Keeps block.exactText) (by rw [OrderlyPut, h])
  | some row =>
    decidable_of_iff (row.exactSha256 = H.sha256 block.exactText → H.Keeps block.id ∧
      (renderable (toBlock H row) = true → block.lossyEligible = true ∧ block.sensitive = false))
      (by rw [OrderlyPut, h])

instance (a : ContextAction) : Decidable (W.Orderly H a) :=
  match a with
  | .put block _ =>
    inferInstanceAs (Decidable (block.id = [] ∨ block.exactText = [] ∨ W.OrderlyPut H block))
  | .compile policy modelId mode scope? => inferInstanceAs (Decidable (
      mayRender policy modelId mode scope? = true →
        ∀ scope ∈ scope?, ∀ block ∈ list H W.rows, renderable block = true →
          ∀ call ∈ W.calls, mayRender call.policy call.modelId call.mode call.scope = true →
            ∀ scope' ∈ call.scope, ∀ block' ∈ call.blocks.map Prod.fst, renderable block' = true →
              contextCacheKey H scope.tenantId modelId block =
                  contextCacheKey H scope'.tenantId call.modelId block' →
                scope.tenantId = scope'.tenantId ∧ modelId = call.modelId ∧ block.id = block'.id))
  | .answer _ _ _ => inferInstanceAs (Decidable True)

/-- Just enough text to be rendered. -/
def longText : JsString := List.replicate 1024 97

/-- A host that keeps texts of one byte for each unit, with the digest of `longText`. -/
def byteHost : ContextHost where
  bind text := text.map UInt16.toUInt8
  column bytes := bytes.map UInt8.toUInt16
  sha256 text :=
    if text = longText then js "2edc986847e209b4016e141a6dc8716d3207350f416969382d431539bf292e4a"
    else text

/-- A block of logs. -/
def logs : ContextBlock := ⟨js "logs", .logs, longText, true, false, none, none⟩

/-- Two models are enabled, and what is rendered for them is cached. -/
def cachingPolicy : CompilerPolicy :=
  ⟨[js "m", [98, 0, 109]], some ⟨true, [js "app"], [js "m", [98, 0, 109]], [], []⟩, true⟩

/-- A tenant compiles for a model. -/
def compileFor (tenantId modelId : JsString) : ContextAction :=
  .compile cachingPolicy modelId .conservative (some ⟨js "app", tenantId, some [js "vision"]⟩)

/-- The renderer answers a page. -/
def page (number : ℕ) : ContextAction := .answer number 0 (some [js "data:image/png;base64,AAAA"])

/-- Two tenants, one after the other. -/
theorem sound_twoTenants :
    (Contexts.run byteHost 128 {} [.put logs 0, .put logs 1, compileFor (js "a") (js "m"), page 0,
      compileFor (js "a") (js "m"), compileFor (js "b") (js "m"), page 2]).Sound byteHost :=
  sound_of_agreeing 128 _ (by decide +kernel)

/-- Images are output only where no accepted block with the identifier was a sensitive one. -/
theorem Sound.insensitive (h : W.Sound H) : ∀ call ∈ W.calls, ∀ p ∈ call.blocks, ∀ o ∈ p.2,
    o = asText p.1 ∨ ∀ b ∈ W.accepted, b.id = p.1.id → b.sensitive = false := by
  rintro call hcall ⟨block, o?⟩ hp o rfl
  exact ((h.calls call hcall).output block o hp).imp id fun hr b hb hid ↦ (hr.2.2.1 b hb hid).2

/-- Images are output only where some were rendered for the tenant. -/
theorem Sound.own (h : W.Sound H) : ∀ call ∈ W.calls, ∀ p ∈ call.blocks, ∀ o ∈ p.2,
    o = asText p.1 ∨ ∃ scope ∈ call.scope, ∃ r ∈ W.renderings, r.tenantId = scope.tenantId := by
  rintro call hcall ⟨block, o?⟩ hp o rfl
  refine ((h.calls call hcall).output block o hp).imp id fun hr ↦ ?_
  obtain ⟨scope, hscope, r, hr, htenant, -⟩ := hr.2.2.2
  exact ⟨scope, hscope, r, hr, htenant⟩

/-- The block is put again as a sensitive one, which is accepted, and rendered. And the images of a
tenant are output for another, whose identifier and model are joined to the same key. -/
theorem not_sound_reput :
    ¬(Contexts.run byteHost 128 {} [.put logs 0, .put { logs with sensitive := true } 1,
        compileFor (js "a") (js "m"), page 0]).Sound byteHost ∧
      ¬(Contexts.run byteHost 128 {} [.put logs 0, compileFor [97, 0, 98] (js "m"), page 0,
        compileFor (js "a") [98, 0, 109]]).Sound byteHost :=
  ⟨fun h ↦ absurd h.insensitive (by decide +kernel), fun h ↦ absurd h.own (by decide +kernel)⟩

end Contexts

end LiteHarness.Context
