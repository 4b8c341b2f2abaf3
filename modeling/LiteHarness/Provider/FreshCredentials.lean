import LiteHarness.Provider.CredentialBroker

/-!
# What the broker hands out

A call of `resolve` should hand out nothing that was fetched for a revoked profile before the
revocation, and nothing expired; one refresh of a profile is in flight, and a caller that goes away
takes no other down. The last two hold of every history. For the first two a history has to be in
order (`brokerSound_of_inOrder`): a load or refresh that is under way during a revocation still fills
the cache when it ends, and material is checked when a refresh ends, not when it is handed out.
-/

namespace LiteHarness.Provider

open Foundation

/-! ## The property -/

structure BrokerSound (c : BrokerCalls) : Prop where
  /-- What a call returns was not fetched before a revocation that came before the call. -/
  fresh : ∀ q ∈ c.answers, ∀ fetched, q.2.result = .ok fetched → q.2.call.since ≤ fetched.born
  /-- One refresh of a profile is in flight. -/
  single : (c.shared.tasks.filter fun task ↦ task.settled.isNone).Pairwise
    fun task task' ↦ task.profileId ≠ task'.profileId
  /-- What a call returns is not expired. -/
  unexpired : ∀ q ∈ c.answers, ∀ fetched, q.2.result = .ok fetched →
    expiresSoon fetched.material 0 q.2.returnedAt = false
  /-- A call that was not aborted itself gets what came of the refresh it has waited for. -/
  handed : ∀ q ∈ c.answers, ∀ number, q.2.waited = some number →
    q.1 ∉ c.shared.aborted.map Prod.fst →
      ∃ task, Table.lookup Refresh.number number c.shared.tasks = some task ∧
        task.outcome = some q.2.result

/-! ## The condition -/

/-- The profile a call loads. -/
def Awaiting.loads : Awaiting → Option JsString
  | .load call _ => some call.profileId
  | .refresh _ _ => none

/-- The refresh a call waits for. -/
def Awaiting.waitsFor : Awaiting → Option ℕ
  | .load _ _ => none
  | .refresh _ number => some number

/-- The material a refresh has brought. -/
def Refresh.brought (task : Refresh) : Option Fetched :=
  task.outcome.bind Except.toOption

/-- The material a refresh has brought is not expired. -/
def Refresh.Unexpired (now : ℤ) (task : Refresh) : Prop :=
  ∀ fetched ∈ task.brought, expiresSoon fetched.material 0 now = false

instance (now : ℤ) (task : Refresh) : Decidable (task.Unexpired now) :=
  inferInstanceAs (Decidable (∀ _ ∈ task.brought, _))

/-- No load or refresh of a profile is under way when it is revoked, and material is handed out
before it expires. -/
def InOrder (c : BrokerCalls) : BrokerInput → Prop
  | .revoke profileId => (∀ q ∈ c.pending, q.2.loads ≠ some profileId) ∧
      profileId ∉ c.shared.refreshes.map Prod.fst
  | .clock now => ∀ task ∈ c.shared.tasks,
      (task.finished = false ∨ ∃ q ∈ c.pending, q.2.waitsFor = some task.number) →
        task.Unexpired now
  | _ => True

instance (c : BrokerCalls) : DecidablePred (InOrder c)
  | .revoke _ => inferInstanceAs (Decidable ((∀ q ∈ c.pending, _) ∧ _))
  | .clock _ => inferInstanceAs (Decidable (∀ task ∈ c.shared.tasks, _ → _))
  | .resolve _ _ => inferInstanceAs (Decidable True)
  | .loaded _ _ => inferInstanceAs (Decidable True)
  | .refreshed _ _ => inferInstanceAs (Decidable True)
  | .finished _ => inferInstanceAs (Decidable True)
  | .goesOn _ => inferInstanceAs (Decidable True)
  | .abort _ _ => inferInstanceAs (Decidable True)

/-! ## The invariant -/

theorem expiresSoon_zero {material : CredentialMaterial} {skewMs now : ℤ} (hskew : 0 ≤ skewMs)
    (h : ¬expiresSoon material skewMs now = true) : expiresSoon material 0 now = false := by
  unfold expiresSoon at h ⊢
  split at h
  · rfl
  · exact absurd rfl h
  · rw [decide_eq_true_iff] at h
    rw [decide_eq_false_iff_not]
    intro hexpired
    exact h (by omega)

namespace Refresh

variable {task task' : Refresh} {now : ℤ}

theorem mem_brought {fetched : Fetched} :
    fetched ∈ task.brought ↔ task.outcome = some (.ok fetched) := by
  rw [brought, Option.mem_def, Option.bind_eq_some_iff]
  constructor
  · rintro ⟨result, hresult, hfetched⟩
    cases result with
    | error e => exact absurd hfetched (by simp [Except.toOption])
    | ok fetched' => rw [hresult, Option.some.inj hfetched]
  · exact fun h ↦ ⟨_, h, rfl⟩

/-- What is accepted was fetched by the refresh, and is not expired. -/
theorem accept_ok {result : Except Thrown CredentialMaterial} {fetched : Fetched}
    (h : task.accept now result = .ok fetched) :
    fetched.born = task.born ∧ expiresSoon fetched.material 0 now = false := by
  unfold accept at h
  split at h
  · exact absurd h (by simp)
  · split_ifs at h with hbad
    obtain rfl := Except.ok.inj h
    exact ⟨rfl, Bool.eq_false_iff.mpr (not_or.mp hbad).2⟩

theorem born_of_brought {fetched : Fetched} (h : fetched ∈ task.brought) :
    fetched.born = task.born := by
  rw [mem_brought, outcome, Option.map_eq_some_iff] at h
  obtain ⟨answer, -, hresult⟩ := h
  exact (accept_ok hresult).1

/-- What may become of a refresh at an instant: the source may answer, with what is not expired. -/
structure Continues (now : ℤ) (task task' : Refresh) : Prop where
  profileId : task'.profileId = task.profileId
  born : task'.born = task.born
  settled : task'.settled = task.settled ∨ task.settled = none ∧ task'.Unexpired now

theorem Continues.refl (now : ℤ) (task : Refresh) : task.Continues now task := ⟨rfl, rfl, Or.inl rfl⟩

theorem Continues.outcome_eq (h : task.Continues now task')
    (hsettled : task'.settled = task.settled) : task'.outcome = task.outcome := by
  have haccept : task'.accept = task.accept := by
    funext instant result
    unfold accept
    rw [h.profileId, h.born]
  rw [outcome, outcome, hsettled, haccept]

/-- An outcome is final. -/
theorem Continues.outcome_final (h : task.Continues now task') {result : Except Thrown Fetched}
    (hresult : task.outcome = some result) : task'.outcome = some result := by
  rcases h.settled with hsettled | ⟨hnone, -⟩
  · rw [h.outcome_eq hsettled, hresult]
  · rw [outcome, hnone] at hresult
    exact absurd hresult (by simp)

theorem Continues.unexpired (h : task.Continues now task') (hu : task.Unexpired now) :
    task'.Unexpired now := by
  rcases h.settled with hsettled | ⟨-, hu'⟩
  · rw [Unexpired, brought, h.outcome_eq hsettled]
    exact hu
  · exact hu'

theorem Continues.trans {task'' : Refresh} (h : task.Continues now task')
    (h' : task'.Continues now task'') : task.Continues now task'' := by
  refine ⟨h'.profileId.trans h.profileId, h'.born.trans h.born, ?_⟩
  rcases h'.settled with hsettled' | ⟨hnone, hu⟩
  · rcases h.settled with hsettled | ⟨hnone, hu⟩
    · exact Or.inl (hsettled'.trans hsettled)
    · exact Or.inr ⟨hnone, h'.unexpired hu⟩
  · rcases h.settled with hsettled | ⟨hnone', -⟩
    · exact Or.inr ⟨hsettled.symm.trans hnone, hu⟩
    · exact Or.inr ⟨hnone', hu⟩

end Refresh

namespace SingleFlightCredentialBroker

/-- The refresh of a number, as far as a call that began after `since` revocations may count on
it. -/
def Handy (s : SingleFlightCredentialBroker) (since number : ℕ) : Prop :=
  ∃ task, Table.lookup Refresh.number number s.tasks = some task ∧ since ≤ task.born ∧
    task.Unexpired s.now

/-- Refreshes are numbered, the table holds those that have not finished, one for a profile, and
what is in the broker was fetched after the last revocation. -/
structure Wf (s : SingleFlightCredentialBroker) : Prop where
  skew : 0 ≤ s.refreshSkewMs
  numbers : s.tasks.map Refresh.number = List.range s.tasks.length
  table : s.refreshes
    = (s.tasks.filter fun task ↦ !task.finished).map fun task ↦ (task.profileId, task.number)
  single : (s.refreshes.map Prod.fst).Nodup
  finished : ∀ task ∈ s.tasks, task.finished = true → task.settled.isSome = true
  underWay : ∀ task ∈ s.tasks, task.finished = false →
    task.born = s.revocations task.profileId ∧ task.Unexpired s.now
  cached : ∀ q ∈ s.cache, q.2.born = s.revocations q.1

/-- What calls do to the broker: time and revocations stand still, and refreshes go on. -/
structure Extends (s t : SingleFlightCredentialBroker) : Prop where
  now : t.now = s.now
  revoked : t.revoked = s.revoked
  aborted : s.aborted ⊆ t.aborted
  tasks : ∀ number task, Table.lookup Refresh.number number s.tasks = some task →
    ∃ task', Table.lookup Refresh.number number t.tasks = some task' ∧ task.Continues s.now task'

theorem Extends.refl (s : SingleFlightCredentialBroker) : s.Extends s :=
  ⟨rfl, rfl, List.Subset.refl _, fun _ task h ↦ ⟨task, h, Refresh.Continues.refl _ _⟩⟩

theorem Extends.trans {s t w : SingleFlightCredentialBroker} (h : s.Extends t) (h' : t.Extends w) :
    s.Extends w := by
  refine ⟨h'.now.trans h.now, h'.revoked.trans h.revoked,
    List.Subset.trans h.aborted h'.aborted, fun number task htask ↦ ?_⟩
  obtain ⟨task', htask', hcontinues⟩ := h.tasks number task htask
  obtain ⟨task'', htask'', hcontinues'⟩ := h'.tasks number task' htask'
  rw [h.now] at hcontinues'
  exact ⟨task'', htask'', hcontinues.trans hcontinues'⟩

end SingleFlightCredentialBroker

/-- What a call may count on while it waits. -/
def Awaiting.Counts (s : SingleFlightCredentialBroker) : Awaiting → Prop
  | .load call born => call.since ≤ born ∧ born = s.revocations call.profileId
  | .refresh call number => s.Handy call.since number

/-- What is true of an answer ever after. -/
structure Resolved.Counts (s : SingleFlightCredentialBroker) (n : ℕ) (a : Resolved) : Prop where
  ok : ∀ fetched, a.result = .ok fetched →
    a.call.since ≤ fetched.born ∧ expiresSoon fetched.material 0 a.returnedAt = false
  handed : ∀ number, a.waited = some number → n ∉ s.aborted.map Prod.fst →
    ∃ task, Table.lookup Refresh.number number s.tasks = some task ∧ task.outcome = some a.result

/-- The stretches of `resolve`. -/
def broker : Protocol SingleFlightCredentialBroker Awaiting Resolved where
  inv := SingleFlightCredentialBroker.Wf
  rely := SingleFlightCredentialBroker.Extends
  suspended _ awaiting s := awaiting.Counts s
  answered n a s := a.Counts s n
  refl := SingleFlightCredentialBroker.Extends.refl
  trans _ _ _ := SingleFlightCredentialBroker.Extends.trans
  suspended_stable := by
    rintro _ (⟨call, born⟩ | ⟨call, number⟩) s t h hst
    · refine ⟨h.1, h.2.trans ?_⟩
      rw [SingleFlightCredentialBroker.revocations, SingleFlightCredentialBroker.revocations,
        hst.revoked]
    · obtain ⟨task, htask, hborn, hu⟩ := h
      obtain ⟨task', htask', hcontinues⟩ := hst.tasks number task htask
      refine ⟨task', htask', hcontinues.born ▸ hborn, ?_⟩
      rw [hst.now]
      exact hcontinues.unexpired hu
  answered_stable := by
    intro n a s t h hst
    refine ⟨h.ok, fun number hnumber hn ↦ ?_⟩
    obtain ⟨task, htask, hresult⟩ := h.handed number hnumber fun hmem ↦ by
      obtain ⟨q, hq, heq⟩ := List.mem_map.mp hmem
      exact hn (List.mem_map.mpr ⟨q, hst.aborted hq, heq⟩)
    obtain ⟨task', htask', hcontinues⟩ := hst.tasks number task htask
    exact ⟨task', htask', hcontinues.outcome_final hresult⟩

/-! ## Stretches -/

namespace SingleFlightCredentialBroker

variable {s : SingleFlightCredentialBroker} {n : ℕ} {call : Resolution}

theorem Wf.numbers_nodup (hs : s.Wf) : (s.tasks.map Refresh.number).Nodup := by
  rw [hs.numbers]
  exact List.nodup_range

/-- A refresh in the table is under way, and was started after the last revocation. -/
theorem Wf.handy (hs : s.Wf) {profileId key : JsString} {number : ℕ}
    (h : Table.lookup Prod.fst profileId s.refreshes = some (key, number)) :
    s.Handy (s.revocations profileId) number := by
  obtain rfl : key = profileId := Table.key_of_lookup h
  have hmem := Table.mem_of_lookup h
  rw [hs.table] at hmem
  obtain ⟨task, htask, heq⟩ := List.mem_map.mp hmem
  obtain ⟨htask, hfinished⟩ := List.mem_filter.mp htask
  obtain ⟨rfl, rfl⟩ := Prod.mk.inj heq
  obtain ⟨hborn, hu⟩ := hs.underWay task htask (by simpa using hfinished)
  exact ⟨task, Table.lookup_of_mem hs.numbers_nodup htask, hborn.ge, hu⟩

theorem Handy.mono {since since' number : ℕ} (h : s.Handy since number) (hle : since' ≤ since) :
    s.Handy since' number := by
  obtain ⟨task, htask, hborn, hu⟩ := h
  exact ⟨task, htask, hle.trans hborn, hu⟩

/-- A call that has thrown without waiting for a refresh. -/
theorem sound_throws (hs : s.Wf) (error : Thrown) :
    broker.Guarantee n s (s, .answers ⟨call, s.now, none, .error error⟩) where
  inv := hs
  rely := Extends.refl s
  ended := ⟨fun _ h ↦ absurd h (by simp), fun _ h ↦ absurd h (by simp)⟩

theorem sound_awaitWithAbort (hs : s.Wf) {number : ℕ} (h : s.Handy call.since number) :
    broker.Guarantee n s (s.awaitWithAbort n call number) := by
  rw [awaitWithAbort]
  split
  case h_1 m reason hlookup =>
    refine ⟨hs, Extends.refl s, fun _ h ↦ absurd h (by simp), fun _ _ hn ↦ absurd ?_ hn⟩
    rw [← Table.lookup_isSome_iff, hlookup]
    rfl
  case h_2 => exact ⟨hs, Extends.refl s, h⟩

/-- A refresh is started for a profile that has none under way. -/
theorem Wf.started (hs : s.Wf) {profileId : JsString}
    (hfree : Table.lookup Prod.fst profileId s.refreshes = none) {t : SingleFlightCredentialBroker}
    (ht : t = { s with
      refreshes := s.refreshes ++ [(profileId, s.tasks.length)]
      tasks := s.tasks ++ [⟨s.tasks.length, profileId, s.revocations profileId, none, false⟩] }) :
    t.Wf ∧ s.Extends t ∧ t.Handy (s.revocations profileId) s.tasks.length := by
  have hnew : ∀ instant, (⟨s.tasks.length, profileId, s.revocations profileId, none, false⟩ :
      Refresh).Unexpired instant := fun instant fetched hfetched ↦ absurd hfetched (by
    rw [Refresh.mem_brought]
    exact fun h ↦ absurd h (by simp [Refresh.outcome]))
  have hfresh : Table.lookup Refresh.number s.tasks.length s.tasks = none := by
    refine Table.lookup_eq_none_iff.mpr fun task htask hnumber ↦ ?_
    have hmem := List.mem_map_of_mem (f := Refresh.number) htask
    rw [hs.numbers, hnumber] at hmem
    exact absurd (List.mem_range.mp hmem) (lt_irrefl _)
  subst ht
  refine ⟨⟨hs.skew, ?_, ?_, ?_, ?_, ?_, hs.cached⟩, ⟨rfl, rfl, List.Subset.refl _, ?_⟩, ?_⟩
  · rw [List.map_append, hs.numbers, List.length_append]
    exact List.range_succ.symm
  · rw [List.filter_append, List.map_append, ← hs.table]
    rfl
  · exact Table.nodup_append_fresh hs.single fun q hq ↦ Table.lookup_eq_none_iff.mp hfree q hq
  · intro task htask hfinished
    rcases List.mem_append.mp htask with htask | htask
    · exact hs.finished task htask hfinished
    · rw [List.mem_singleton.mp htask] at hfinished
      exact absurd hfinished Bool.false_ne_true
  · intro task htask hfinished
    rcases List.mem_append.mp htask with htask | htask
    · exact hs.underWay task htask hfinished
    · rw [List.mem_singleton.mp htask]
      exact ⟨rfl, hnew _⟩
  · intro number task htask
    refine ⟨task, ?_, Refresh.Continues.refl _ _⟩
    rw [Table.lookup_append, htask, Option.some_or]
  · refine ⟨_, ?_, le_rfl, hnew _⟩
    rw [Table.lookup_append, hfresh, Option.none_or, Table.lookup_singleton, if_pos rfl]

theorem sound_join (hs : s.Wf) (h : call.since ≤ s.revocations call.profileId) :
    broker.Guarantee n s (s.join n call) := by
  rw [join]
  split
  case h_1 key number hlookup => exact sound_awaitWithAbort hs ((hs.handy hlookup).mono h)
  case h_2 hlookup =>
    obtain ⟨ht, hst, hhandy⟩ := hs.started hlookup rfl
    exact (sound_awaitWithAbort ht (hhandy.mono h)).of_rely hst

/-- Caching what was fetched after the last revocation. -/
theorem Wf.store (hs : s.Wf) {profileId : JsString} {fetched : Fetched}
    (h : fetched.born = s.revocations profileId) :
    (s.store profileId fetched).Wf ∧ s.Extends (s.store profileId fetched) := by
  refine ⟨⟨hs.skew, hs.numbers, hs.table, hs.single, hs.finished, hs.underWay, fun q hq ↦ ?_⟩,
    ⟨rfl, rfl, List.Subset.refl _, fun _ task htask ↦ ⟨task, htask, Refresh.Continues.refl _ _⟩⟩⟩
  change q ∈ Table.upsert _ _ _ _ at hq
  rw [Table.upsert] at hq
  split_ifs at hq
  · obtain ⟨q', hq', heq⟩ := Table.mem_update.mp hq
    split_ifs at heq
    · rw [← heq]
      exact h
    · rw [← heq]
      exact hs.cached q' hq'
  · rcases List.mem_append.mp hq with hq | hq
    · exact hs.cached q hq
    · rw [List.mem_singleton.mp hq]
      exact h

theorem sound_use (hs : s.Wf) (h : call.since ≤ s.revocations call.profileId)
    {current : Option Fetched}
    (hcurrent : ∀ fetched ∈ current, fetched.born = s.revocations call.profileId) :
    broker.Guarantee n s (s.use n call current) := by
  match current with
  | some fetched =>
    rw [use]
    split_ifs with hsoon
    · exact sound_join hs h
    · have hborn := hcurrent fetched rfl
      obtain ⟨ht, hst⟩ := hs.store hborn
      refine ⟨ht, hst, fun fetched' hfetched ↦ ?_, fun _ hwaited ↦ absurd hwaited (by simp)⟩
      rw [← Except.ok.inj hfetched, hborn]
      exact ⟨h, expiresSoon_zero hs.skew hsoon⟩
  | none => exact sound_join hs h

theorem sound_begin (hs : s.Wf) (profileId : JsString) (aborted : Option Thrown) :
    broker.Guarantee n s (s.begin n profileId aborted) := by
  unfold SingleFlightCredentialBroker.begin
  dsimp only
  split_ifs
  · exact sound_throws hs _
  · split
    · exact sound_throws hs _
    · split
      case h_1 key fetched hlookup =>
        refine sound_use hs le_rfl fun fetched' hfetched ↦ ?_
        obtain rfl : key = profileId := Table.key_of_lookup hlookup
        rw [← Option.some.inj hfetched]
        exact hs.cached _ (Table.mem_of_lookup hlookup)
      case h_2 => exact ⟨hs, Extends.refl s, le_rfl, rfl⟩

theorem sound_loaded (hs : s.Wf) {born : ℕ} (h : call.since ≤ born)
    (hborn : born = s.revocations call.profileId)
    (result : Except Thrown (Option CredentialMaterial)) :
    broker.Guarantee n s (s.loaded n call born result) := by
  match result with
  | .error e => exact sound_throws hs e
  | .ok material =>
    refine sound_use hs (hborn ▸ h) fun fetched hfetched ↦ ?_
    obtain ⟨m, -, rfl⟩ := Option.map_eq_some_iff.mp hfetched
    exact hborn

theorem sound_handed (hs : s.Wf) {number : ℕ} (h : s.Handy call.since number) :
    broker.Guarantee n s (s.handed call number) := by
  obtain ⟨task, htask, hborn, hu⟩ := h
  rw [handed, htask]
  split
  case h_1 result hresult =>
    rw [Option.bind_some] at hresult
    split_ifs at hresult
    refine ⟨hs, Extends.refl s, fun fetched hfetched ↦ ?_, fun number' hnumber _ ↦ ?_⟩
    · have hbrought : fetched ∈ task.brought := by
        rw [Refresh.mem_brought, hresult]
        exact congrArg some hfetched
      exact ⟨(Refresh.born_of_brought hbrought).symm ▸ hborn, hu fetched hbrought⟩
    · rw [← Option.some.inj hnumber]
      exact ⟨task, htask, hresult⟩
  case h_2 => exact ⟨hs, Extends.refl s, task, htask, hborn, hu⟩

theorem sound_abort (hs : s.Wf) (reason : Thrown) {awaiting : Awaiting}
    (h : awaiting.Counts s) : broker.Guarantee n s (s.abort n reason awaiting) := by
  have ht : ({ s with aborted := s.aborted ++ [(n, reason)] } : SingleFlightCredentialBroker).Wf :=
    ⟨hs.skew, hs.numbers, hs.table, hs.single, hs.finished, hs.underWay, hs.cached⟩
  have hst : s.Extends { s with aborted := s.aborted ++ [(n, reason)] } :=
    ⟨rfl, rfl, List.subset_append_left _ _,
      fun _ task htask ↦ ⟨task, htask, Refresh.Continues.refl _ _⟩⟩
  match awaiting with
  | .load call born => exact ⟨ht, hst, h⟩
  | .refresh call number =>
    refine ⟨ht, hst, fun _ hresult ↦ absurd hresult (by simp), fun _ _ hn ↦ absurd ?_ hn⟩
    exact List.mem_map.mpr ⟨_, List.mem_append_right _ List.mem_cons_self, rfl⟩

/-! ## Changes between the stretches -/

/-- Under its number there is one refresh. -/
theorem Wf.eq_of_number (hs : s.Wf) {task task' : Refresh} (htask : task ∈ s.tasks)
    (htask' : task' ∈ s.tasks) (h : task.number = task'.number) : task = task' :=
  List.inj_on_of_nodup_map hs.numbers_nodup htask htask' h

/-- The source answers a refresh. -/
theorem Wf.settled (hs : s.Wf) {number : ℕ} {task : Refresh}
    (htask : Table.lookup Refresh.number number s.tasks = some task) (hnone : task.settled = none)
    (result : Except Thrown CredentialMaterial) {t : SingleFlightCredentialBroker}
    (ht : t = { s with
      tasks := Table.update (fun t ↦ t.number = number)
        (fun t ↦ { t with settled := some (s.now, result) }) s.tasks }) :
    t.Wf ∧ s.Extends t := by
  have hkey : task.number = number := Table.key_of_lookup htask
  have hunexpired : ∀ task : Refresh,
      { task with settled := some (s.now, result) : Refresh }.Unexpired s.now := by
    intro task fetched hfetched
    rw [Refresh.mem_brought, Refresh.outcome] at hfetched
    exact (Refresh.accept_ok (Option.some.inj hfetched)).2
  subst ht
  refine ⟨⟨hs.skew, ?_, ?_, hs.single, ?_, ?_, hs.cached⟩, ⟨rfl, rfl, List.Subset.refl _, ?_⟩⟩
  · rw [Table.update_length, Table.map_update]
    · exact hs.numbers
    · exact fun _ ↦ rfl
  · rw [Table.map_filter_update]
    · exact hs.table
    · exact fun _ ↦ rfl
    · exact fun _ ↦ rfl
  · intro task' htask' hfinished
    obtain ⟨old, hold, rfl⟩ := Table.mem_update.mp htask'
    split_ifs at hfinished ⊢ with hnumber
    · rfl
    · exact hs.finished old hold hfinished
  · intro task' htask' hfinished
    obtain ⟨old, hold, rfl⟩ := Table.mem_update.mp htask'
    split_ifs at hfinished ⊢ with hnumber
    · exact ⟨(hs.underWay old hold hfinished).1, hunexpired old⟩
    · exact hs.underWay old hold hfinished
  · intro number' old hold
    rw [Table.lookup_update, hold]
    rotate_left
    · exact fun _ ↦ rfl
    refine ⟨_, rfl, ?_⟩
    dsimp only
    split_ifs with hnumber
    · have hsame : old = task :=
        hs.eq_of_number (Table.mem_of_lookup hold) (Table.mem_of_lookup htask)
          ((of_decide_eq_true hnumber).trans hkey.symm)
      rw [hsame]
      exact ⟨rfl, rfl, Or.inr ⟨hnone, hunexpired task⟩⟩
    · exact Refresh.Continues.refl _ _

theorem Wf.refreshed (hs : s.Wf) (number : ℕ) (result : Except Thrown CredentialMaterial) :
    (s.refreshed number result).Wf ∧ s.Extends (s.refreshed number result) := by
  rw [SingleFlightCredentialBroker.refreshed]
  split
  case h_1 => exact ⟨hs, Extends.refl s⟩
  case h_2 task htask =>
    split_ifs with hsettled
    · exact ⟨hs, Extends.refl s⟩
    · have hnone : task.settled = none := Option.not_isSome_iff_eq_none.mp hsettled
      obtain ⟨ht, hst⟩ := hs.settled htask hnone result rfl
      dsimp only
      split
      case h_1 => exact ⟨ht, hst⟩
      case h_2 fetched hfetched =>
        have hmem := Table.mem_of_lookup htask
        have hunfinished : task.finished = false := by
          rw [Bool.eq_false_iff]
          exact fun hfinished ↦ hsettled (hs.finished task hmem hfinished)
        obtain ⟨hw, htw⟩ := ht.store ((Refresh.accept_ok hfetched).1.trans
          (hs.underWay task hmem hunfinished).1)
        exact ⟨hw, hst.trans htw⟩

theorem Wf.finish (hs : s.Wf) (number : ℕ) :
    (s.finished number).Wf ∧ s.Extends (s.finished number) := by
  rw [SingleFlightCredentialBroker.finished]
  split
  case h_1 => exact ⟨hs, Extends.refl s⟩
  case h_2 task htask =>
    split_ifs with hready
    · exact ⟨hs, Extends.refl s⟩
    · obtain ⟨hsettled, hunfinished⟩ := not_or.mp hready
      have hkey : task.number = number := Table.key_of_lookup htask
      have hmem := Table.mem_of_lookup htask
      -- the entry of the profile is the one of this refresh
      have hsingle : ∀ t ∈ s.tasks, t.finished = false →
          (t.profileId = task.profileId ↔ t.number = number) := by
        intro t ht hopen
        constructor
        · intro hprofile
          have hentries := hs.single
          rw [hs.table, List.map_map] at hentries
          have hsame := List.inj_on_of_nodup_map hentries
            (List.mem_filter.mpr ⟨ht, by rw [hopen]; rfl⟩)
            (List.mem_filter.mpr ⟨hmem, by simpa using hunfinished⟩) hprofile
          rw [hsame, hkey]
        · intro hnumber
          rw [hs.eq_of_number ht hmem (hnumber.trans hkey.symm)]
      refine ⟨⟨hs.skew, ?_, ?_, ?_, ?_, ?_, hs.cached⟩, ⟨rfl, rfl, List.Subset.refl _, ?_⟩⟩
      · rw [Table.update_length, Table.map_update]
        · exact hs.numbers
        · exact fun _ ↦ rfl
      · change s.refreshes.filter _ = _
        rw [hs.table, List.filter_map, List.filter_filter, Table.update, List.filter_map,
          List.map_map]
        refine congrArg₂ _ ?_ (List.filter_congr fun t ht ↦ ?_)
        · funext t
          rw [Function.comp_apply]
          split_ifs <;> rfl
        · rw [Function.comp_apply, Function.comp_apply]
          cases hopen : t.finished with
          | true => split_ifs <;> simp [hopen]
          | false =>
            by_cases hnumber : t.number = number
            · simp [hnumber, (hsingle t ht hopen).mpr hnumber]
            · simp [hnumber, hopen, mt (hsingle t ht hopen).mp hnumber]
      · exact hs.single.sublist (List.filter_sublist.map _)
      · intro task' htask' hfinished
        obtain ⟨old, hold, rfl⟩ := Table.mem_update.mp htask'
        split_ifs at hfinished ⊢ with hnumber
        · rw [hs.eq_of_number hold hmem ((of_decide_eq_true hnumber).trans hkey.symm)]
          exact Option.isSome_iff_ne_none.mpr fun h ↦ hsettled (Option.isNone_iff_eq_none.mpr h)
        · exact hs.finished old hold hfinished
      · intro task' htask' hfinished
        obtain ⟨old, hold, rfl⟩ := Table.mem_update.mp htask'
        split_ifs at hfinished ⊢ with hnumber
        exact hs.underWay old hold hfinished
      · intro number' old hold
        rw [Table.lookup_update, hold]
        rotate_left
        · exact fun _ ↦ rfl
        refine ⟨_, rfl, ?_⟩
        dsimp only
        split_ifs <;> exact ⟨rfl, rfl, Or.inl rfl⟩

theorem revocations_revoke_of_ne {profileId other : JsString} (h : profileId ≠ other) :
    (s.revoke other).revocations profileId = s.revocations profileId := by
  rw [revocations, revoke, List.count_append, List.count_singleton, revocations]
  simp [h.symm]

/-- A profile nothing of which is under way is revoked. -/
theorem Wf.revoke (hs : s.Wf) {profileId : JsString}
    (hfree : profileId ∉ s.refreshes.map Prod.fst) : (s.revoke profileId).Wf where
  skew := hs.skew
  numbers := hs.numbers
  table := hs.table
  single := hs.single
  finished := hs.finished
  underWay task htask hfinished := by
    have hne : task.profileId ≠ profileId := by
      rintro rfl
      refine hfree (List.mem_map.mpr ⟨(task.profileId, task.number), ?_, rfl⟩)
      rw [hs.table]
      exact List.mem_map_of_mem (List.mem_filter.mpr ⟨htask, by simpa using hfinished⟩)
    rw [revocations_revoke_of_ne hne]
    exact hs.underWay task htask hfinished
  cached q hq := by
    obtain ⟨hq, hne⟩ := List.mem_filter.mp hq
    rw [revocations_revoke_of_ne (of_decide_eq_true hne)]
    exact hs.cached q hq

/-- The clock moves, and nothing under way expires. -/
theorem Wf.clock (hs : s.Wf) {now : ℤ}
    (h : ∀ task ∈ s.tasks, task.finished = false → task.Unexpired now) :
    ({ s with now := now } : SingleFlightCredentialBroker).Wf where
  skew := hs.skew
  numbers := hs.numbers
  table := hs.table
  single := hs.single
  finished := hs.finished
  underWay task htask hfinished := ⟨(hs.underWay task htask hfinished).1, h task htask hfinished⟩
  cached := hs.cached

/-- The source is asked to refresh a profile once at a time. -/
theorem Wf.single_inFlight (hs : s.Wf) :
    (s.tasks.filter fun task ↦ task.settled.isNone).Pairwise
      fun task task' ↦ task.profileId ≠ task'.profileId := by
  have hentries := hs.single
  rw [hs.table, List.map_map, List.Nodup, List.pairwise_map] at hentries
  have hopen : s.tasks.filter (fun task ↦ task.settled.isNone)
      = (s.tasks.filter fun task ↦ !task.finished).filter fun task ↦ task.settled.isNone := by
    rw [List.filter_filter]
    refine List.filter_congr fun task htask ↦ ?_
    cases hsettled : task.settled with
    | some answer => rfl
    | none =>
      have hfinished : task.finished = false := by
        rw [Bool.eq_false_iff]
        intro hfinished
        have hsome := hs.finished task htask hfinished
        rw [hsettled] at hsome
        exact Bool.false_ne_true hsome
      rw [hfinished]
      rfl
  rw [hopen]
  exact hentries.sublist List.filter_sublist

end SingleFlightCredentialBroker

/-! ## Runs -/

variable {c : BrokerCalls}

/-- The next stretch of a call. -/
theorem brokerStretch_sound {s : SingleFlightCredentialBroker} (hs : s.Wf) (n : ℕ)
    (input : BrokerInput) {awaiting : Awaiting} (h : awaiting.Counts s) :
    broker.Guarantee n s (brokerStretch n input awaiting s) := by
  have hwaits : broker.Guarantee n s (s, .suspends awaiting) :=
    ⟨hs, SingleFlightCredentialBroker.Extends.refl s, h⟩
  cases input with
  | abort m reason =>
    cases awaiting with
    | load call born => exact SingleFlightCredentialBroker.sound_abort hs reason h
    | refresh call number => exact SingleFlightCredentialBroker.sound_abort hs reason h
  | loaded m result =>
    cases awaiting with
    | load call born => exact SingleFlightCredentialBroker.sound_loaded hs h.1 h.2 result
    | refresh call number => exact hwaits
  | goesOn m =>
    cases awaiting with
    | load call born => exact hwaits
    | refresh call number => exact SingleFlightCredentialBroker.sound_handed hs h
  | _ => exact hwaits

/-- A step that is in order keeps the protocol. -/
theorem BrokerCalls.holds_step (h : broker.Holds c) {input : BrokerInput} (hin : InOrder c input) :
    broker.Holds (BrokerCalls.step c input) := by
  cases input with
  | resolve profileId aborted =>
    exact h.start (f := fun s ↦ s.begin c.started profileId aborted)
      (SingleFlightCredentialBroker.sound_begin h.inv profileId aborted)
  | loaded n result => exact h.resume n fun _ _ hcounts ↦ brokerStretch_sound h.inv n _ hcounts
  | goesOn n => exact h.resume n fun _ _ hcounts ↦ brokerStretch_sound h.inv n _ hcounts
  | abort n reason => exact h.resume n fun _ _ hcounts ↦ brokerStretch_sound h.inv n _ hcounts
  | refreshed number result =>
    obtain ⟨hinv, hrely⟩ := h.inv.refreshed number result
    exact h.change (f := fun s ↦ s.refreshed number result) hinv hrely
  | finished number =>
    obtain ⟨hinv, hrely⟩ := h.inv.finish number
    exact h.change (f := fun s ↦ s.finished number) hinv hrely
  | revoke profileId =>
    obtain ⟨hloads, hfree⟩ := hin
    refine h.changed (f := fun s ↦ s.revoke profileId) (h.inv.revoke hfree) (fun q hq ↦ ?_)
      fun q hq ↦ ⟨(h.answered q hq).ok, (h.answered q hq).handed⟩
    have hcounts := h.suspended q hq
    obtain ⟨n, ⟨call, born⟩ | ⟨call, number⟩⟩ := q
    · have hne : call.profileId ≠ profileId := fun heq ↦ hloads _ hq (congrArg some heq)
      exact ⟨hcounts.1, hcounts.2.trans
        (SingleFlightCredentialBroker.revocations_revoke_of_ne hne).symm⟩
    · exact hcounts
  | clock now =>
    refine h.changed (f := fun s ↦ { s with now := now })
      (h.inv.clock fun task htask hfinished ↦ hin task htask (Or.inl hfinished)) (fun q hq ↦ ?_)
      fun q hq ↦ ⟨(h.answered q hq).ok, (h.answered q hq).handed⟩
    have hcounts := h.suspended q hq
    obtain ⟨n, ⟨call, born⟩ | ⟨call, number⟩⟩ := q
    · exact hcounts
    · obtain ⟨task, htask, hborn, -⟩ := hcounts
      refine ⟨task, htask, hborn, hin task (Table.mem_of_lookup htask) (Or.inr ⟨_, hq, ?_⟩)⟩
      rw [Table.key_of_lookup htask]
      rfl

theorem BrokerCalls.holds_init {refreshSkewMs : ℤ} (hskew : 0 ≤ refreshSkewMs) (now : ℤ) :
    broker.Holds (BrokerCalls.init refreshSkewMs now) :=
  Protocol.holds_init
    { skew := hskew
      numbers := rfl
      table := rfl
      single := List.nodup_nil
      finished := fun _ htask ↦ absurd htask List.not_mem_nil
      underWay := fun _ htask ↦ absurd htask List.not_mem_nil
      cached := fun _ hq ↦ absurd hq List.not_mem_nil }

/-- Where the protocol holds, the broker is sound. -/
theorem brokerSound_of_holds (h : broker.Holds c) : BrokerSound c where
  fresh q hq fetched hresult := ((h.answered q hq).ok fetched hresult).1
  single := h.inv.single_inFlight
  unexpired q hq fetched hresult := ((h.answered q hq).ok fetched hresult).2
  handed q hq number hnumber hn := (h.answered q hq).handed number hnumber hn

/-- **When the broker is sound.** It is in every history in which no profile is revoked while a load
or a refresh of it is under way, and material is handed out before it expires. -/
theorem brokerSound_of_inOrder {refreshSkewMs : ℤ} (hskew : 0 ≤ refreshSkewMs) (now : ℤ)
    (history : List BrokerInput)
    (h : Throughout BrokerCalls.step InOrder (BrokerCalls.init refreshSkewMs now) history) :
    BrokerSound (BrokerCalls.run refreshSkewMs now history) :=
  brokerSound_of_holds (h.induction (p := broker.Holds)
    (fun _ _ hc hin ↦ BrokerCalls.holds_step hc hin) (BrokerCalls.holds_init hskew now))

def bearer : CredentialMaterial := ⟨js "Bearer", some (some 1000)⟩

/-- Two callers share a refresh, one of them goes away, and the profile is revoked afterwards. -/
theorem brokerSound_shared :
    BrokerSound (BrokerCalls.run 60 0
      [.resolve (js "p") none, .resolve (js "p") none, .loaded 0 (.ok none), .loaded 1 (.ok none),
        .abort 0 (.other (js "Aborted")), .clock 10, .refreshed 0 (.ok bearer), .finished 0,
        .goesOn 1, .revoke (js "p"), .clock 2000]) :=
  brokerSound_of_inOrder (by decide) _ _ (by decide +kernel)

/-- A profile is revoked while it is being refreshed. A later call joins the refresh, and returns
what was fetched before the revocation. -/
theorem not_brokerSound_revoked :
    ¬BrokerSound (BrokerCalls.run 60 0
      [.resolve (js "p") none, .loaded 0 (.ok none), .revoke (js "p"), .resolve (js "p") none,
        .loaded 1 (.ok none), .refreshed 0 (.ok bearer), .finished 0, .goesOn 1]) := by
  intro h
  have hstale := h.fresh (1, ⟨⟨js "p", 1⟩, 0, some 0, .ok ⟨bearer, 0⟩⟩) (by decide +kernel) _ rfl
  exact absurd hstale (by decide)

end LiteHarness.Provider
