import LiteHarness.Foundation.Suspension
import LiteHarness.Workspace.Compactor
import Mathlib.Data.List.Perm.Basic

/-!
# What the requests of the queue are answered with

A request is answered at most once, with the record of a job of its own workspace, and it is
answered after finitely many steps of jobs (`requests_coalesced`). It joins the job of its workspace
where there is one in the map of active jobs, so that it may be answered with a snapshot that was
begun before it (`not_prompt_joined`); no other request is. Nothing is said of a request that joins
a job whose waiters have been answered already.
-/

namespace LiteHarness.Workspace

open Foundation

variable {J ρ : Type} (O : CompactorOptions)

namespace SnapshotCompactorQueue

/-! ## The property -/

/-- The active entry an input takes a step further. -/
def advanced (s : SnapshotCompactorQueue J ρ) : CompactorInput J ρ → Option (ActiveEntry J ρ)
  | .enqueue _ _ _ => none
  | .close => none
  | .finish workspaceId _ => (s.find workspaceId).filter fun e ↦ e.progress.stage = .running
  | .settle workspaceId => (s.find workspaceId).filter fun e ↦ e.progress.stage = .finished
  | .remove workspaceId _ => (s.find workspaceId).filter fun e ↦ e.progress.stage = .settled

/-- An input is due for a request: it is a step of its job, or of any job while its own has not been
started. -/
def due (n : ℕ) (s : SnapshotCompactorQueue J ρ) (i : CompactorInput J ρ) : Bool :=
  (s.advanced i).any fun e ↦
    (s.pending.any fun p ↦ n ∈ p.waiters) || (n ∈ e.waiters && e.progress.stage ≠ .settled)

/-- What a request may be answered with. -/
structure Answers (job : SnapshotJob) (r : SnapshotRequest) : Prop where
  own : job.workspaceId = r.workspaceId
  /-- A request that has not joined an active job is answered with one that was started later. -/
  prompt : r.found = none → r.time ≤ job.startedAt
  /-- The job finishes after the request, unless it had finished and was about to be answered. -/
  later : r.found = none ∨ r.found = some .running → r.time < job.finishedAt

/-- **What the queue promises.** -/
structure Coalesced (s : SnapshotCompactorQueue J ρ) : Prop where
  /-- No request is answered twice. -/
  once : (s.answers.map Prod.fst).Nodup
  /-- A record is that of a job of the workspace of the request. -/
  resolved : ∀ n record job, (n, SnapshotAnswer.resolved record job) ∈ s.answers →
    ∃ r, s.requests[n]? = some r ∧ Answers job r
  /-- There are never too many jobs. -/
  bounded : s.active.length ≤ O.maxConcurrent
  /-- There are never two jobs of one workspace. -/
  apart : (s.active.map ActiveEntry.workspaceId).Nodup
  /-- Every request is answered once enough of the steps it waits for have been taken. -/
  settles : ∀ n r, s.requests[n]? = some r → r.found ≠ some .settled → ∃ bound,
    ∀ later : List (CompactorInput J ρ),
      n ∈ (later.foldl (step O) s).answers.map Prod.fst ∨
        (∃ i, (later.foldl (step O) s).due n i = true) ∧ dueSteps (step O) (due n) s later < bound

/-- Every request is answered with a job that was started after it. -/
def Prompt (s : SnapshotCompactorQueue J ρ) : Prop :=
  ∀ n record job, (n, SnapshotAnswer.resolved record job) ∈ s.answers →
    ∃ r, s.requests[n]? = some r ∧ r.time ≤ job.startedAt

/-! ## Where the requests are -/

/-- The waiters of active jobs that have not been answered. -/
def activeWaiters (active : List (ActiveEntry J ρ)) : List ℕ :=
  (active.filter fun e ↦ e.progress.stage ≠ .settled).flatMap ActiveEntry.waiters

/-- The requests that have been answered, and those that are going to be. -/
def places (s : SnapshotCompactorQueue J ρ) : List ℕ :=
  s.answers.map Prod.fst ++
    (s.pending.flatMap SnapshotQueueEntry.waiters ++ activeWaiters s.active)

/-- A request may be in a pending entry. -/
def Fits (s : SnapshotCompactorQueue J ρ) (e : SnapshotQueueEntry J) (n : ℕ) : Prop :=
  ∃ r, s.requests[n]? = some r ∧ r.workspaceId = e.workspaceId ∧ r.found = none ∧ r.time ≤ s.clock

/-- A request may be in an active entry. -/
def Suits (requests : List SnapshotRequest) (e : ActiveEntry J ρ) (n : ℕ) : Prop :=
  ∃ r, requests[n]? = some r ∧ r.workspaceId = e.workspaceId ∧
    (r.found = none → r.time ≤ e.startedAt) ∧
    ∀ record finishedAt, e.progress = .finished (.ok record) finishedAt →
      r.found = none ∨ r.found = some .running → r.time < finishedAt

/-- The invariant within a step. -/
structure Core (s : SnapshotCompactorQueue J ρ) : Prop where
  count : s.running = s.active.length
  bounded : s.active.length ≤ O.maxConcurrent
  apart : (s.pending.map SnapshotQueueEntry.workspaceId ++
    s.active.map ActiveEntry.workspaceId).Nodup
  closed : s.closed = true → s.pending = []
  nodup : s.places.Nodup
  known : ∀ n ∈ s.places, n < s.requests.length
  kept : ∀ n r, s.requests[n]? = some r → r.found ≠ some .settled → n ∈ s.places
  fits : ∀ e ∈ s.pending, ∀ n ∈ e.waiters, s.Fits e n
  suits : ∀ e ∈ s.active, e.progress.stage ≠ .settled → ∀ n ∈ e.waiters, Suits s.requests e n
  resolved : ∀ n record job, (n, SnapshotAnswer.resolved record job) ∈ s.answers →
    ∃ r, s.requests[n]? = some r ∧ Answers job r

/-- The invariant between steps. -/
structure Orderly (s : SnapshotCompactorQueue J ρ) : Prop where
  core : Core O s
  /-- Where something is pending, there is no room for another job. -/
  full : s.pending ≠ [] → s.running = O.maxConcurrent
  past : ∀ r ∈ s.requests, r.time < s.clock

variable {O} {s : SnapshotCompactorQueue J ρ} {host : JsString → CompactorHost}

/-! ## Active entries -/

theorem activeWaiters_append (active active' : List (ActiveEntry J ρ)) :
    activeWaiters (active ++ active') = activeWaiters active ++ activeWaiters active' := by
  rw [activeWaiters, List.filter_append, List.flatMap_append]
  rfl

theorem activeWaiters_cons_of_ne {e : ActiveEntry J ρ} {active : List (ActiveEntry J ρ)}
    (h : e.progress.stage ≠ .settled) :
    activeWaiters (e :: active) = e.waiters ++ activeWaiters active := by
  unfold activeWaiters
  rw [List.filter_cons, if_pos (decide_eq_true h), List.flatMap_cons]

theorem activeWaiters_cons_of_eq {e : ActiveEntry J ρ} {active : List (ActiveEntry J ρ)}
    (h : e.progress.stage = .settled) : activeWaiters (e :: active) = activeWaiters active := by
  unfold activeWaiters
  rw [List.filter_cons, if_neg (by simpa using h)]

theorem Core.apart_active (h : Core O s) : (s.active.map ActiveEntry.workspaceId).Nodup :=
  h.apart.of_append_right

/-- The entry of a workspace, in its place. -/
theorem split_of_find {w : JsString} {e : ActiveEntry J ρ} (he : s.find w = some e) :
    e.workspaceId = w ∧ ∃ before rest, s.active = before ++ e :: rest :=
  ⟨Table.key_of_lookup he, List.append_of_mem (Table.mem_of_lookup he)⟩

/-- The step of a job changes its entry alone. -/
theorem Core.setProgress_active (h : Core O s) {e : ActiveEntry J ρ}
    {before rest : List (ActiveEntry J ρ)} (hsplit : s.active = before ++ e :: rest)
    (progress : JobProgress ρ) : (s.setProgress e.workspaceId progress).active =
      before ++ { e with progress := progress } :: rest := by
  have hnodup := h.apart_active
  rw [hsplit] at hnodup
  rw [setProgress, hsplit]
  exact Table.update_split hnodup

/-! ## Starting jobs -/

/-- A workspace that is pending is not active. -/
theorem Core.start_eq (h : Core O s) {e : SnapshotQueueEntry J} {rest : List (SnapshotQueueEntry J)}
    (hpending : s.pending = e :: rest) : s.start O host e rest =
      { s with
        pending := rest
        running := s.running + 1
        active := s.active ++ [s.started O host e] } := by
  have hnone : Table.lookup ActiveEntry.workspaceId e.workspaceId s.active = none := by
    refine Table.lookup_eq_none_iff.mpr fun e' he' heq ↦ ?_
    have hapart := h.apart
    rw [hpending, List.map_cons, List.cons_append, List.nodup_cons] at hapart
    refine hapart.1 (List.mem_append_right _ ?_)
    rw [← heq]
    exact List.mem_map_of_mem he'
  have hupsert : Table.upsert ActiveEntry.workspaceId (s.started O host e)
      (fun _ ↦ s.started O host e) s.active = s.active ++ [s.started O host e] :=
    if_neg (Option.not_isSome_iff_eq_none.mpr hnone)
  rw [start, hupsert]

theorem started_stage (e : SnapshotQueueEntry J) :
    (s.started O host e).progress.stage ≠ .settled := by
  unfold started
  dsimp only
  cases deferral O (host e.workspaceId) <;> exact nofun

/-- A job that is deferred has no record. -/
theorem started_progress (e : SnapshotQueueEntry J) {record : ρ} {finishedAt : ℕ} :
    (s.started O host e).progress ≠ .finished (.ok record) finishedAt := by
  unfold started
  dsimp only
  cases deferral O (host e.workspaceId) <;> exact nofun

/-- A request stays where it is known. -/
theorem Core.of_perm {t : SnapshotCompactorQueue J ρ} (h : Core O s)
    (hplaces : t.places.Perm s.places) (hrequests : t.requests = s.requests) :
    t.places.Nodup ∧ (∀ n ∈ t.places, n < t.requests.length) ∧
      ∀ n r, t.requests[n]? = some r → r.found ≠ some .settled → n ∈ t.places := by
  rw [hrequests]
  exact ⟨hplaces.nodup_iff.mpr h.nodup, fun n hn ↦ h.known n (hplaces.subset hn),
    fun n r hr hfound ↦ hplaces.symm.subset (h.kept n r hr hfound)⟩

theorem Core.start (h : Core O s) {e : SnapshotQueueEntry J} {rest : List (SnapshotQueueEntry J)}
    (hpending : s.pending = e :: rest) (hroom : s.running < O.maxConcurrent)
    (hopen : s.closed = false) : Core O (s.start O host e rest) := by
  rw [h.start_eq hpending]
  have hfits := h.fits
  rw [hpending] at hfits
  have hplaces : places { s with
      pending := rest
      running := s.running + 1
      active := s.active ++ [s.started O host e] } |>.Perm s.places := by
    rw [places, places, hpending, List.flatMap_cons, activeWaiters_append,
      activeWaiters_cons_of_ne (started_stage e)]
    refine List.Perm.append_left _ (List.perm_iff_count.mpr fun n ↦ ?_)
    simp only [List.count_append, started, activeWaiters, List.filter_nil, List.flatMap_nil,
      List.count_nil]
    omega
  obtain ⟨hnodup, hknown, hkept⟩ := h.of_perm hplaces rfl
  refine ⟨?_, ?_, ?_, fun hclosed ↦ absurd (hclosed.symm.trans hopen) nofun, hnodup, hknown, hkept,
    fun e' he' ↦ hfits e' (List.mem_cons_of_mem _ he'), fun e' he' hstage n hn ↦ ?_, h.resolved⟩
  · rw [List.length_append, h.count]
    rfl
  · rw [List.length_append, ← h.count]
    exact hroom
  · have hapart := h.apart
    rw [hpending] at hapart
    rw [List.map_append, ← List.append_assoc]
    exact (List.perm_append_singleton _ _).nodup_iff.mpr hapart
  · rcases List.mem_append.mp he' with hold | hnew
    · exact h.suits e' hold hstage n hn
    · rw [List.mem_singleton.mp hnew] at hn ⊢
      obtain ⟨r, hr, hown, hfound, htime⟩ := hfits e List.mem_cons_self n hn
      exact ⟨r, hr, hown, fun _ ↦ htime, fun _ _ hprogress ↦
        absurd hprogress (started_progress e)⟩

/-! ## The loop -/

/-- The loop changes the entries alone. -/
theorem drainPending_eq (pending : List (SnapshotQueueEntry J)) (s : SnapshotCompactorQueue J ρ) :
    ∃ pending' active' running', drainPending O host pending s =
      { s with pending := pending', active := active', running := running' } := by
  induction pending generalizing s with
  | nil => exact ⟨_, _, _, rfl⟩
  | cons e rest ih =>
    rw [drainPending]
    split_ifs
    · obtain ⟨pending', active', running', h⟩ := ih (s.start O host e rest)
      exact ⟨pending', active', running', h⟩
    · exact ⟨_, _, _, rfl⟩

/-- What every start keeps, the loop keeps. -/
theorem drain_induction {p : SnapshotCompactorQueue J ρ → Prop}
    (hstart : ∀ s e rest, p s → s.pending = e :: rest → s.running < O.maxConcurrent →
      s.closed = false → p (s.start O host e rest)) (hs : p s) : p (s.drain O host) := by
  have hloop : ∀ (pending : List (SnapshotQueueEntry J)) (s : SnapshotCompactorQueue J ρ), p s →
      s.pending = pending → s.closed = false → p (drainPending O host pending s) := by
    intro pending
    induction pending with
    | nil => exact fun s hs _ _ ↦ hs
    | cons e rest ih =>
      intro s hs hpending hopen
      rw [drainPending]
      split_ifs with hroom
      · exact ih _ (hstart s e rest hs hpending hroom hopen) rfl hopen
      · exact hs
  rw [drain]
  split_ifs with hclosed
  · exact hs
  · exact hloop _ _ hs rfl (Bool.eq_false_iff.mpr hclosed)

theorem Core.drain (h : Core O s) : Core O (s.drain O host) :=
  drain_induction (fun _ _ _ hs hpending hroom hopen ↦ hs.start hpending hroom hopen) h

/-- The loop ends when nothing is pending, or when there is no room. -/
theorem Core.drain_full (h : Core O s) :
    (s.drain O host).pending ≠ [] → (s.drain O host).running = O.maxConcurrent := by
  have hloop : ∀ (pending : List (SnapshotQueueEntry J)) (s : SnapshotCompactorQueue J ρ),
      s.pending = pending → (drainPending O host pending s).pending ≠ [] →
      O.maxConcurrent ≤ (drainPending O host pending s).running := by
    intro pending
    induction pending with
    | nil => exact fun s hpending hne ↦ absurd hpending hne
    | cons e rest ih =>
      intro s hpending hne
      rw [drainPending] at hne ⊢
      split_ifs at hne ⊢ with hroom
      · exact ih _ rfl hne
      · exact Nat.le_of_not_lt hroom
  intro hne
  have hcore : Core O (s.drain O host) := h.drain
  refine Nat.le_antisymm (hcore.count ▸ hcore.bounded) ?_
  rw [SnapshotCompactorQueue.drain] at hne ⊢
  split_ifs at hne ⊢ with hclosed
  · exact absurd (h.closed hclosed) hne
  · exact hloop _ _ rfl hne

theorem drain_eq (O : CompactorOptions) (host : JsString → CompactorHost)
    (s : SnapshotCompactorQueue J ρ) : ∃ pending' active' running', s.drain O host =
    { s with pending := pending', active := active', running := running' } := by
  rw [drain]
  split_ifs
  · exact ⟨_, _, _, rfl⟩
  · exact drainPending_eq _ _

/-! ## New requests -/

theorem getElem?_concat_of_some {requests : List SnapshotRequest} {n : ℕ} {r r' : SnapshotRequest}
    (h : requests[n]? = some r) : (requests ++ [r'])[n]? = some r := by
  obtain ⟨hn, -⟩ := List.getElem?_eq_some_iff.mp h
  rw [List.getElem?_append_left hn, h]

theorem getElem?_concat_cases {requests : List SnapshotRequest} {n : ℕ} {r r' : SnapshotRequest}
    (h : (requests ++ [r'])[n]? = some r) :
    requests[n]? = some r ∨ n = requests.length ∧ r = r' := by
  rcases Nat.lt_or_ge n requests.length with hn | hn
  · rw [List.getElem?_append_left hn] at h
    exact Or.inl h
  · rw [List.getElem?_append_right hn, List.getElem?_singleton] at h
    split_ifs at h with hzero
    exact Or.inr ⟨by omega, (Option.some.inj h).symm⟩

theorem Suits.request {requests : List SnapshotRequest} {e : ActiveEntry J ρ} {n : ℕ}
    (h : Suits requests e n) (r : SnapshotRequest) : Suits (requests ++ [r]) e n := by
  obtain ⟨r', hr', hrest⟩ := h
  exact ⟨r', getElem?_concat_of_some hr', hrest⟩

/-- A request that is new to the queue. -/
theorem Core.request_places (h : Core O s) {t : SnapshotCompactorQueue J ρ} {r : SnapshotRequest}
    (hrequests : t.requests = s.requests ++ [r])
    (hplaces : t.places.Perm (s.requests.length :: s.places) ∨
      r.found = some .settled ∧ t.places = s.places) :
    t.places.Nodup ∧ (∀ n ∈ t.places, n < t.requests.length) ∧
      ∀ n r, t.requests[n]? = some r → r.found ≠ some .settled → n ∈ t.places := by
  have hfresh : s.requests.length ∉ s.places := fun hmem ↦ (h.known _ hmem).ne rfl
  have hlength : t.requests.length = s.requests.length + 1 := by
    rw [hrequests, List.length_append]
    rfl
  rcases hplaces with hperm | ⟨hfound, heq⟩
  · refine ⟨hperm.nodup_iff.mpr (List.nodup_cons.mpr ⟨hfresh, h.nodup⟩), fun n hn ↦ ?_,
      fun n r' hr' hne ↦ hperm.symm.subset ?_⟩
    · rw [hlength]
      rcases List.mem_cons.mp (hperm.subset hn) with rfl | hold
      · exact Nat.lt_succ_self _
      · exact (h.known n hold).trans (Nat.lt_succ_self _)
    · rw [hrequests] at hr'
      rcases getElem?_concat_cases hr' with hold | ⟨rfl, -⟩
      · exact List.mem_cons_of_mem _ (h.kept n r' hold hne)
      · exact List.mem_cons_self
  · rw [heq]
    refine ⟨h.nodup, fun n hn ↦ ?_, fun n r' hr' hne ↦ ?_⟩
    · rw [hlength]
      exact (h.known n hn).trans (Nat.lt_succ_self _)
    · rw [hrequests] at hr'
      rcases getElem?_concat_cases hr' with hold | ⟨-, rfl⟩
      · exact h.kept n r' hold hne
      · exact absurd hfound hne

/-- A waiter joins in the place of its entry. -/
theorem Core.join_active (h : Core O s) {e : ActiveEntry J ρ} {before rest : List (ActiveEntry J ρ)}
    (hsplit : s.active = before ++ e :: rest) {n : ℕ} :
    (s.join n e.workspaceId).active =
      before ++ { e with waiters := e.waiters ++ [n] } :: rest := by
  have hnodup := h.apart_active
  rw [hsplit] at hnodup
  rw [SnapshotCompactorQueue.join, hsplit]
  exact Table.update_split hnodup

/-- A request that joins an active job. -/
theorem Core.join (h : Core O s) {w : JsString} {e : ActiveEntry J ρ} (he : s.find w = some e) :
    Core O ({ s with requests := s.requests ++ [s.request w] }.join s.requests.length w) := by
  obtain ⟨rfl, before, rest, hsplit⟩ := split_of_find he
  have hfound : (s.request e.workspaceId).found = some e.progress.stage := by
    rw [SnapshotCompactorQueue.request, he]
    rfl
  have hactive : ({ s with requests := s.requests ++ [s.request e.workspaceId] }.join
      s.requests.length e.workspaceId).active =
      before ++ { e with waiters := e.waiters ++ [s.requests.length] } :: rest :=
    h.join_active hsplit
  have hkeys : ({ s with requests := s.requests ++ [s.request e.workspaceId] }.join
      s.requests.length e.workspaceId).active.map ActiveEntry.workspaceId =
      s.active.map ActiveEntry.workspaceId := by
    rw [hactive, hsplit, List.map_append, List.map_append]
    rfl
  have hlength : ({ s with requests := s.requests ++ [s.request e.workspaceId] }.join
      s.requests.length e.workspaceId).active.length = s.active.length := by
    rw [hactive, hsplit, List.length_append, List.length_append]
    rfl
  obtain ⟨hnodup, hknown, hkept⟩ := h.request_places (t := { s with
      requests := s.requests ++ [s.request e.workspaceId] }.join s.requests.length e.workspaceId)
    rfl (by
      rw [places, hactive, places, hsplit, activeWaiters_append, activeWaiters_append, hfound]
      by_cases hstage : e.progress.stage = .settled
      · rw [activeWaiters_cons_of_eq (e := { e with waiters := e.waiters ++ [s.requests.length] })
          hstage, activeWaiters_cons_of_eq hstage, hstage]
        exact Or.inr ⟨rfl, rfl⟩
      · rw [activeWaiters_cons_of_ne (e := { e with waiters := e.waiters ++ [s.requests.length] })
          hstage, activeWaiters_cons_of_ne hstage]
        refine Or.inl (List.perm_iff_count.mpr fun n ↦ ?_)
        simp only [SnapshotCompactorQueue.join, List.count_append, List.count_cons, List.count_nil]
        omega)
  refine ⟨h.count.trans hlength.symm, hlength.le.trans h.bounded, ?_, h.closed, hnodup, hknown,
    hkept, fun p hp n hn ↦ ?_, fun e' he' hstage n hn ↦ ?_, fun n record job hmem ↦ ?_⟩
  · rw [hkeys]
    exact h.apart
  · obtain ⟨r, hr, hrest⟩ := h.fits p hp n hn
    exact ⟨r, getElem?_concat_of_some hr, hrest⟩
  · rw [hactive] at he'
    have hold : ∀ e' ∈ before ++ rest, e' ∈ s.active := by
      intro e' he'
      rw [hsplit]
      exact List.mem_append.mpr ((List.mem_append.mp he').imp_right (List.mem_cons_of_mem _))
    rcases List.mem_append.mp he' with hmem | hmem
    · exact (h.suits e' (hold e' (List.mem_append_left _ hmem)) hstage n hn).request _
    · rcases List.mem_cons.mp hmem with rfl | hmem
      · rcases List.mem_append.mp hn with hn | hn
        · exact (h.suits e (hsplit ▸ List.mem_append_right _ List.mem_cons_self) hstage n
            hn).request _
        · -- the new request has found the job active
          rw [List.mem_singleton.mp hn]
          refine ⟨s.request e.workspaceId, List.getElem?_concat_length, rfl, fun hnone ↦ ?_,
            fun record finishedAt hprogress hor ↦ ?_⟩
          · exact absurd (hfound.symm.trans hnone) nofun
          · rw [hfound] at hor
            rw [show e.progress = _ from hprogress] at hor
            rcases hor with hor | hor <;> exact absurd hor nofun
      · exact (h.suits e' (hold e' (List.mem_append_right _ hmem)) hstage n hn).request _
  · obtain ⟨r, hr, hanswers⟩ := h.resolved n record job hmem
    exact ⟨r, getElem?_concat_of_some hr, hanswers⟩

/-- The pending entries with one more waiter. -/
theorem Core.await_pending (h : Core O s) {w : JsString} (hnone : s.find w = none) (n : ℕ)
    (snapshot : J) :
    ((s.await n w snapshot).pending.map SnapshotQueueEntry.workspaceId ++
        s.active.map ActiveEntry.workspaceId).Nodup ∧
      ((s.await n w snapshot).pending.flatMap SnapshotQueueEntry.waiters).Perm
        (n :: s.pending.flatMap SnapshotQueueEntry.waiters) ∧
      ∀ p ∈ (s.await n w snapshot).pending, ∀ m ∈ p.waiters,
        (∃ p' ∈ s.pending, p'.workspaceId = p.workspaceId ∧ m ∈ p'.waiters) ∨
          m = n ∧ p.workspaceId = w := by
  have hnodup := h.apart.of_append_left
  unfold SnapshotCompactorQueue.await Table.upsert
  dsimp only
  cases hlookup : Table.lookup SnapshotQueueEntry.workspaceId w s.pending with
  | some q =>
    obtain rfl := Table.key_of_lookup hlookup
    obtain ⟨before, rest, hsplit⟩ := List.append_of_mem (Table.mem_of_lookup hlookup)
    have hupdate : Table.update (fun e : SnapshotQueueEntry J ↦ e.workspaceId = q.workspaceId)
        (fun e ↦ { e with waiters := e.waiters ++ [n] }) s.pending =
        before ++ { q with waiters := q.waiters ++ [n] } :: rest := by
      rw [hsplit] at hnodup ⊢
      exact Table.update_split hnodup
    rw [Option.isSome_some, if_pos rfl, hupdate]
    refine ⟨?_, List.perm_iff_count.mpr fun m ↦ ?_, fun p hp m hm ↦ ?_⟩
    · have hapart := h.apart
      rw [hsplit, List.map_append] at hapart
      rw [List.map_append]
      exact hapart
    · rw [hsplit]
      simp only [List.flatMap_append, List.flatMap_cons, List.count_append, List.count_cons,
        List.count_nil]
      omega
    · rcases List.mem_append.mp hp with hp | hp
      · exact Or.inl ⟨p, hsplit ▸ List.mem_append_left _ hp, rfl, hm⟩
      · rcases List.mem_cons.mp hp with rfl | hp
        · rcases List.mem_append.mp hm with hm | hm
          · exact Or.inl ⟨q, Table.mem_of_lookup hlookup, rfl, hm⟩
          · exact Or.inr ⟨List.mem_singleton.mp hm, rfl⟩
        · exact Or.inl ⟨p, hsplit ▸ List.mem_append_right _ (List.mem_cons_of_mem _ hp), rfl, hm⟩
  | none =>
    rw [Option.isSome_none, if_neg Bool.false_ne_true]
    refine ⟨?_, ?_, fun p hp m hm ↦ ?_⟩
    · have hfresh : w ∉ s.pending.map SnapshotQueueEntry.workspaceId ++
          s.active.map ActiveEntry.workspaceId := by
        intro hmem
        rcases List.mem_append.mp hmem with hmem | hmem
        · obtain ⟨q, hq, hkey⟩ := List.mem_map.mp hmem
          exact Table.lookup_eq_none_iff.mp hlookup q hq hkey
        · obtain ⟨e, he, hkey⟩ := List.mem_map.mp hmem
          exact Table.lookup_eq_none_iff.mp hnone e he hkey
      rw [List.map_append, List.map_singleton, List.append_assoc, List.singleton_append]
      exact List.perm_middle.nodup_iff.mpr (List.nodup_cons.mpr ⟨hfresh, h.apart⟩)
    · rw [List.flatMap_append, List.flatMap_singleton]
      exact List.perm_append_singleton _ _
    · rcases List.mem_append.mp hp with hp | hp
      · exact Or.inl ⟨p, hp, rfl, hm⟩
      · rw [List.mem_singleton.mp hp] at hm ⊢
        exact Or.inr ⟨List.mem_singleton.mp hm, rfl⟩

/-- A request that waits for a job to be started. -/
theorem Core.await (h : Core O s) (hopen : s.closed = false) {w : JsString}
    (hnone : s.find w = none) (snapshot : J) :
    Core O ({ s with requests := s.requests ++ [s.request w] }.await s.requests.length w
      snapshot) := by
  have hfound : (s.request w).found = none := by
    rw [SnapshotCompactorQueue.request, hnone]
    rfl
  obtain ⟨hapart, hperm, hmembers⟩ := h.await_pending hnone s.requests.length snapshot
  obtain ⟨hnodup, hknown, hkept⟩ := h.request_places (t := { s with
      requests := s.requests ++ [s.request w] }.await s.requests.length w snapshot) rfl (by
    refine Or.inl ?_
    have hrest := (hperm.append_right (activeWaiters s.active)).append_left
      (s.answers.map Prod.fst)
    exact hrest.trans List.perm_middle)
  refine ⟨h.count, h.bounded, hapart, fun hclosed ↦ absurd (hclosed.symm.trans hopen) nofun, hnodup,
    hknown, hkept, fun p hp m hm ↦ ?_, fun e he hstage m hm ↦ (h.suits e he hstage m hm).request _,
    fun m record job hmem ↦ ?_⟩
  · rcases hmembers p hp m hm with ⟨q, hq, hkey, hm'⟩ | ⟨rfl, hkey⟩
    · obtain ⟨r, hr, hown, hrest⟩ := h.fits q hq m hm'
      exact ⟨r, getElem?_concat_of_some hr, hown.trans hkey, hrest⟩
    · exact ⟨s.request w, List.getElem?_concat_length, hkey.symm, hfound, le_rfl⟩
  · obtain ⟨r, hr, hanswers⟩ := h.resolved m record job hmem
    exact ⟨r, getElem?_concat_of_some hr, hanswers⟩

/-- A request after `close`. -/
theorem Core.refuse (h : Core O s) (w : JsString) :
    Core O { s with
      requests := s.requests ++ [s.request w]
      answers := s.answers ++ [(s.requests.length, .rejected closedError)] } := by
  obtain ⟨hnodup, hknown, hkept⟩ := h.request_places (t := { s with
      requests := s.requests ++ [s.request w]
      answers := s.answers ++ [(s.requests.length, .rejected closedError)] }) rfl (by
    refine Or.inl ?_
    rw [places, List.map_append, List.append_assoc]
    exact List.perm_middle)
  refine ⟨h.count, h.bounded, h.apart, h.closed, hnodup, hknown, hkept, fun p hp m hm ↦ ?_,
    fun e he hstage m hm ↦ (h.suits e he hstage m hm).request _, fun m record job hmem ↦ ?_⟩
  · obtain ⟨r, hr, hrest⟩ := h.fits p hp m hm
    exact ⟨r, getElem?_concat_of_some hr, hrest⟩
  · rcases List.mem_append.mp hmem with hold | hnew
    · obtain ⟨r, hr, hanswers⟩ := h.resolved m record job hold
      exact ⟨r, getElem?_concat_of_some hr, hanswers⟩
    · exact absurd (congrArg Prod.snd (List.mem_singleton.mp hnew)) nofun

/-! ## The other inputs -/

/-- The queue after `close`. -/
def shut (s : SnapshotCompactorQueue J ρ) : SnapshotCompactorQueue J ρ :=
  { s with
    closed := true
    answers := s.answers ++
      (s.pending.flatMap SnapshotQueueEntry.waiters).map fun n ↦ (n, .rejected closedError)
    pending := [] }

theorem Core.shut (h : Core O s) : Core O s.shut := by
  have hplaces : s.shut.places = s.places := by
    have hfst : ((s.pending.flatMap SnapshotQueueEntry.waiters).map fun n ↦
        (n, (SnapshotAnswer.rejected closedError : SnapshotAnswer ρ))).map Prod.fst =
        s.pending.flatMap SnapshotQueueEntry.waiters := by
      rw [List.map_map]
      exact List.map_id _
    rw [places, places, SnapshotCompactorQueue.shut, List.map_append, hfst, List.flatMap_nil,
      List.nil_append, List.append_assoc]
  obtain ⟨hnodup, hknown, hkept⟩ := h.of_perm (.of_eq hplaces) rfl
  refine ⟨h.count, h.bounded, h.apart.of_append_right, fun _ ↦ rfl, hnodup, hknown, hkept,
    fun p hp ↦ absurd hp List.not_mem_nil, h.suits, fun n record job hmem ↦ ?_⟩
  rcases List.mem_append.mp hmem with hold | hnew
  · exact h.resolved n record job hold
  · obtain ⟨m, -, heq⟩ := List.mem_map.mp hnew
    exact absurd (congrArg Prod.snd heq) nofun

/-- A job goes on: what has to be shown of its entry and the answers. -/
theorem Core.progress (h : Core O s) {e : ActiveEntry J ρ} {before rest : List (ActiveEntry J ρ)}
    (hsplit : s.active = before ++ e :: rest) (progress : JobProgress ρ)
    (answers : List (ℕ × SnapshotAnswer ρ))
    (hplaces : (places { s.setProgress e.workspaceId progress with
      answers := s.answers ++ answers }).Perm s.places)
    (hsuits : progress.stage ≠ .settled → ∀ n ∈ e.waiters,
      Suits s.requests { e with progress := progress } n)
    (hresolved : ∀ n record job, (n, SnapshotAnswer.resolved record job) ∈ answers →
      ∃ r, s.requests[n]? = some r ∧ Answers job r) :
    Core O { s.setProgress e.workspaceId progress with answers := s.answers ++ answers } := by
  have hactive := h.setProgress_active hsplit progress
  have hkeys : (s.setProgress e.workspaceId progress).active.map ActiveEntry.workspaceId =
      s.active.map ActiveEntry.workspaceId := by
    rw [hactive, hsplit, List.map_append, List.map_append]
    rfl
  have hlength : (s.setProgress e.workspaceId progress).active.length = s.active.length := by
    rw [hactive, hsplit, List.length_append, List.length_append]
    rfl
  obtain ⟨hnodup, hknown, hkept⟩ := h.of_perm hplaces rfl
  refine ⟨h.count.trans hlength.symm, hlength.le.trans h.bounded, ?_, h.closed, hnodup, hknown,
    hkept, h.fits, fun e' he' hstage n hn ↦ ?_, fun n record job hmem ↦ ?_⟩
  · rw [hkeys]
    exact h.apart
  · rw [hactive] at he'
    rcases List.mem_append.mp he' with hmem | hmem
    · exact h.suits e' (hsplit ▸ List.mem_append_left _ hmem) hstage n hn
    · rcases List.mem_cons.mp hmem with rfl | hmem
      · exact hsuits hstage n hn
      · exact h.suits e' (hsplit ▸ List.mem_append_right _ (List.mem_cons_of_mem _ hmem)) hstage n hn
  · rcases List.mem_append.mp hmem with hold | hnew
    · exact h.resolved n record job hold
    · exact hresolved n record job hnew

theorem activeWaiters_split {e : ActiveEntry J ρ} {before rest : List (ActiveEntry J ρ)}
    (h : e.progress.stage ≠ .settled) : activeWaiters (before ++ e :: rest) =
      activeWaiters before ++ (e.waiters ++ activeWaiters rest) := by
  rw [activeWaiters_append, activeWaiters_cons_of_ne h]

theorem Core.finish (h : Core O s) (hpast : ∀ r ∈ s.requests, r.time < s.clock)
    {e : ActiveEntry J ρ} (hfind : s.find e.workspaceId = some e)
    (hrunning : e.progress = .running) (result : Except JsString ρ) :
    Core O (s.setProgress e.workspaceId (.finished result s.clock)) := by
  obtain ⟨-, before, rest, hsplit⟩ := split_of_find hfind
  have hstage : e.progress.stage ≠ .settled := by
    rw [hrunning]
    exact nofun
  have hgoes := h.progress hsplit (.finished result s.clock) [] (.of_eq ?_) (fun _ n hn ↦ ?_)
    fun _ _ _ hmem ↦ absurd hmem List.not_mem_nil
  · rwa [List.append_nil] at hgoes
  · have hnext : ({ e with progress := .finished result s.clock } :
        ActiveEntry J ρ).progress.stage ≠ .settled := nofun
    rw [places, places, h.setProgress_active hsplit, hsplit, activeWaiters_split hnext,
      activeWaiters_split hstage, List.append_nil]
    rfl
  · obtain ⟨r, hr, hown, hprompt, -⟩ := h.suits e (hsplit ▸ List.mem_append_right _
      List.mem_cons_self) hstage n hn
    refine ⟨r, hr, hown, hprompt, fun record finishedAt hprogress _ ↦ ?_⟩
    obtain ⟨-, rfl⟩ := JobProgress.finished.inj hprogress
    exact hpast r (List.mem_of_getElem? hr)

/-- The queue after the callback of `then`. -/
def settleEntry (s : SnapshotCompactorQueue J ρ) (e : ActiveEntry J ρ) (result : Except JsString ρ)
    (finishedAt : ℕ) : SnapshotCompactorQueue J ρ :=
  { s.setProgress e.workspaceId .settled with
    answers := s.answers ++ e.waiters.map fun n ↦ (n, answer e result finishedAt) }

theorem Core.settleEntry (h : Core O s) {e : ActiveEntry J ρ}
    (hfind : s.find e.workspaceId = some e) {result : Except JsString ρ} {finishedAt : ℕ}
    (hfinished : e.progress = .finished result finishedAt) :
    Core O (s.settleEntry e result finishedAt) := by
  obtain ⟨-, before, rest, hsplit⟩ := split_of_find hfind
  have hstage : e.progress.stage ≠ .settled := by
    rw [hfinished]
    exact nofun
  refine h.progress hsplit .settled _ ?_ (fun hne ↦ absurd rfl hne) fun n record job hmem ↦ ?_
  · -- the waiters have become answers
    have hfst : (e.waiters.map fun n ↦ (n, answer e result finishedAt)).map Prod.fst =
        e.waiters := by
      rw [List.map_map]
      exact List.map_id _
    rw [places, places, h.setProgress_active hsplit, hsplit, activeWaiters_split hstage,
      activeWaiters_append, activeWaiters_cons_of_eq rfl, List.map_append, hfst]
    refine List.perm_iff_count.mpr fun n ↦ ?_
    simp only [setProgress, List.count_append]
    omega
  · obtain ⟨m, hm, heq⟩ := List.mem_map.mp hmem
    obtain ⟨rfl, hanswer⟩ := Prod.mk.inj heq
    obtain ⟨r, hr, hown, hprompt, hlater⟩ := h.suits e (hsplit ▸ List.mem_append_right _
      List.mem_cons_self) hstage m hm
    refine ⟨r, hr, ?_⟩
    cases result with
    | error error => exact absurd hanswer nofun
    | ok record' =>
      obtain ⟨rfl, rfl⟩ := SnapshotAnswer.resolved.inj hanswer
      exact ⟨hown.symm, hprompt, hlater record' finishedAt hfinished⟩

/-- The queue before the callback of `finally` goes on with it. -/
def takeOut (s : SnapshotCompactorQueue J ρ) (w : JsString) : SnapshotCompactorQueue J ρ :=
  { s with
    active := s.active.filter fun e ↦ e.workspaceId ≠ w
    running := s.running - 1 }

/-- A job is taken out of the map from its place. -/
theorem Core.takeOut_active (h : Core O s) {e : ActiveEntry J ρ}
    {before rest : List (ActiveEntry J ρ)} (hsplit : s.active = before ++ e :: rest) :
    (s.takeOut e.workspaceId).active = before ++ rest := by
  have hnodup := h.apart_active
  rw [hsplit] at hnodup
  rw [takeOut, hsplit]
  exact Table.filter_split hnodup

theorem Core.takeOut (h : Core O s) {e : ActiveEntry J ρ} (hfind : s.find e.workspaceId = some e)
    (hsettled : e.progress = .settled) : Core O (s.takeOut e.workspaceId) := by
  obtain ⟨-, before, rest, hsplit⟩ := split_of_find hfind
  have hactive := h.takeOut_active hsplit
  have hlength : s.active.length = (before ++ rest).length + 1 := by
    rw [hsplit, List.length_append, List.length_append]
    rfl
  have hplaces : (s.takeOut e.workspaceId).places = s.places := by
    rw [places, places, hactive, hsplit, activeWaiters_append, activeWaiters_append,
      activeWaiters_cons_of_eq (by rw [hsettled]; rfl)]
    rfl
  obtain ⟨hnodup, hknown, hkept⟩ := h.of_perm (.of_eq hplaces) rfl
  have hsublist : List.Sublist (s.takeOut e.workspaceId).active s.active := by
    rw [hactive, hsplit]
    exact (List.sublist_cons_self e rest).append_left before
  refine ⟨?_, ?_, ?_, h.closed, hnodup, hknown, hkept, h.fits,
    fun e' he' ↦ h.suits e' (hsublist.subset he'), h.resolved⟩
  · rw [hactive, SnapshotCompactorQueue.takeOut, h.count, hlength]
    rfl
  · exact hsublist.length_le.trans h.bounded
  · exact h.apart.sublist ((hsublist.map _).append_left _)

/-! ## One input -/

theorem eq_running_of_stage {progress : JobProgress ρ} (h : progress.stage = .running) :
    progress = .running := by
  cases progress with
  | running => rfl
  | finished _ _ => exact absurd h nofun
  | settled => exact absurd h nofun

theorem eq_finished_of_stage {progress : JobProgress ρ} (h : progress.stage = .finished) :
    ∃ result finishedAt, progress = .finished result finishedAt := by
  cases progress with
  | running => exact absurd h nofun
  | finished result finishedAt => exact ⟨result, finishedAt, rfl⟩
  | settled => exact absurd h nofun

theorem eq_settled_of_stage {progress : JobProgress ρ} (h : progress.stage = .settled) :
    progress = .settled := by
  cases progress with
  | running => exact absurd h nofun
  | finished _ _ => exact absurd h nofun
  | settled => rfl

/-- What an input does. -/
inductive Handles (O : CompactorOptions) (s : SnapshotCompactorQueue J ρ) :
    CompactorInput J ρ → SnapshotCompactorQueue J ρ → Prop where
  | refuse (w : JsString) (snapshot : J) (host : JsString → CompactorHost)
    (hclosed : s.closed = true) : Handles O s (.enqueue w snapshot host)
      { s with
        requests := s.requests ++ [s.request w]
        answers := s.answers ++ [(s.requests.length, .rejected closedError)] }
  | join (w : JsString) (snapshot : J) (host : JsString → CompactorHost) (e : ActiveEntry J ρ)
    (hfind : s.find w = some e) : Handles O s (.enqueue w snapshot host)
      (({ s with requests := s.requests ++ [s.request w] }.join s.requests.length w).drain O host)
  | await (w : JsString) (snapshot : J) (host : JsString → CompactorHost)
    (hopen : s.closed = false) (hfind : s.find w = none) : Handles O s (.enqueue w snapshot host)
      (({ s with requests := s.requests ++ [s.request w] }.await s.requests.length w
        snapshot).drain O host)
  | shut : Handles O s .close s.shut
  | finish (e : ActiveEntry J ρ) (result : Except JsString ρ)
    (hfind : s.find e.workspaceId = some e) (hrunning : e.progress = .running) :
      Handles O s (.finish e.workspaceId result)
        (s.setProgress e.workspaceId (.finished result s.clock))
  | settle (e : ActiveEntry J ρ) (result : Except JsString ρ) (finishedAt : ℕ)
    (hfind : s.find e.workspaceId = some e)
    (hfinished : e.progress = .finished result finishedAt) :
      Handles O s (.settle e.workspaceId) (s.settleEntry e result finishedAt)
  | remove (e : ActiveEntry J ρ) (host : JsString → CompactorHost)
    (hfind : s.find e.workspaceId = some e) (hsettled : e.progress = .settled) :
      Handles O s (.remove e.workspaceId host) ((s.takeOut e.workspaceId).drain O host)
  | idle (i : CompactorInput J ρ) (hidle : s.advanced i = none) : Handles O s i s

theorem filter_find_of_none {w : JsString} {p : ActiveEntry J ρ → Bool} (h : s.find w = none) :
    (s.find w).filter p = none := by
  rw [h, Option.filter_none]

theorem filter_find_of_ne {e : ActiveEntry J ρ} {w : JsString} {stage : JobStage}
    (h : s.find w = some e) (hne : e.progress.stage ≠ stage) :
    (s.find w).filter (fun e ↦ e.progress.stage = stage) = none := by
  rw [h, Option.filter_some, if_neg (by simpa using hne)]

/-- The cases of an input. -/
theorem handles (i : CompactorInput J ρ) : Handles O s i (s.handle O i) := by
  cases i with
  | enqueue w snapshot host =>
    rw [handle, enqueue]
    dsimp only
    split_ifs with hclosed
    · exact .refuse w snapshot host hclosed
    · cases hfind : s.find w with
      | some e => exact .join w snapshot host e hfind
      | none => exact .await w snapshot host (Bool.eq_false_iff.mpr hclosed) hfind
  | close =>
    rw [handle, close]
    split_ifs with hclosed
    · exact .idle _ rfl
    · exact .shut
  | finish w result =>
    rw [handle, finish]
    cases hfind : s.find w with
    | none => exact .idle _ (filter_find_of_none hfind)
    | some e =>
      obtain ⟨rfl, -⟩ := split_of_find hfind
      dsimp only
      split
      · rename_i hrunning
        exact .finish e result hfind hrunning
      · rename_i hne
        exact .idle _ (filter_find_of_ne hfind fun hstage ↦ hne (eq_running_of_stage hstage))
  | settle w =>
    rw [handle, settle]
    cases hfind : s.find w with
    | none => exact .idle _ (filter_find_of_none hfind)
    | some e =>
      obtain ⟨rfl, -⟩ := split_of_find hfind
      dsimp only
      split
      · rename_i result finishedAt hfinished
        exact .settle e result finishedAt hfind hfinished
      · rename_i hne
        refine .idle _ (filter_find_of_ne hfind fun hstage ↦ ?_)
        obtain ⟨result, finishedAt, hfinished⟩ := eq_finished_of_stage hstage
        exact hne result finishedAt hfinished
  | remove w host =>
    rw [handle, remove]
    cases hfind : s.find w with
    | none => exact .idle _ (filter_find_of_none hfind)
    | some e =>
      obtain ⟨rfl, -⟩ := split_of_find hfind
      dsimp only
      split
      · rename_i hsettled
        exact .remove e host hfind hsettled
      · rename_i hne
        exact .idle _ (filter_find_of_ne hfind fun hstage ↦ hne (eq_settled_of_stage hstage))

variable {t : SnapshotCompactorQueue J ρ} {i : CompactorInput J ρ}

theorem drain_requests : (s.drain O host).requests = s.requests := by
  obtain ⟨_, _, _, h⟩ := drain_eq O host s
  rw [h]

theorem drain_clock : (s.drain O host).clock = s.clock := by
  obtain ⟨_, _, _, h⟩ := drain_eq O host s
  rw [h]

/-- An input adds a request, or none. -/
theorem Handles.requests (h : Handles O s i t) :
    t.requests = s.requests ∨ ∃ w, t.requests = s.requests ++ [s.request w] := by
  cases h with
  | refuse w => exact Or.inr ⟨w, rfl⟩
  | join w => exact Or.inr ⟨w, drain_requests⟩
  | await w => exact Or.inr ⟨w, drain_requests⟩
  | shut => exact Or.inl rfl
  | finish => exact Or.inl rfl
  | settle => exact Or.inl rfl
  | remove => exact Or.inl drain_requests
  | idle => exact Or.inl rfl

theorem Handles.clock (h : Handles O s i t) : t.clock = s.clock := by
  cases h with
  | join => exact drain_clock
  | await => exact drain_clock
  | remove => exact drain_clock
  | refuse => rfl
  | shut => rfl
  | finish => rfl
  | settle => rfl
  | idle => rfl

theorem Handles.core (h : Handles O s i t) (hs : Orderly O s) :
    Core O t ∧ (t.pending ≠ [] → t.running = O.maxConcurrent) := by
  cases h with
  | refuse w snapshot host hclosed =>
    exact ⟨hs.core.refuse w, hs.full⟩
  | join w snapshot host e hfind =>
    exact ⟨(hs.core.join hfind).drain, (hs.core.join hfind).drain_full⟩
  | await w snapshot host hopen hfind =>
    have hcore := hs.core.await hopen hfind snapshot
    exact ⟨hcore.drain, hcore.drain_full⟩
  | shut => exact ⟨hs.core.shut, fun hne ↦ absurd rfl hne⟩
  | finish e result hfind hrunning => exact ⟨hs.core.finish hs.past hfind hrunning result, hs.full⟩
  | settle e result finishedAt hfind hfinished =>
    exact ⟨hs.core.settleEntry hfind hfinished, hs.full⟩
  | remove e host hfind hsettled =>
    have hcore := hs.core.takeOut hfind hsettled
    exact ⟨hcore.drain, hcore.drain_full⟩
  | idle => exact ⟨hs.core, hs.full⟩

theorem Core.tick (h : Core O s) {clock : ℕ} (hclock : s.clock ≤ clock) :
    Core O { s with clock := clock } := by
  refine ⟨h.count, h.bounded, h.apart, h.closed, h.nodup, h.known, h.kept, fun e he n hn ↦ ?_,
    h.suits, h.resolved⟩
  obtain ⟨r, hr, hown, hfound, htime⟩ := h.fits e he n hn
  exact ⟨r, hr, hown, hfound, htime.trans hclock⟩

/-- One step keeps the order. -/
theorem Orderly.step (h : Orderly O s) (i : CompactorInput J ρ) : Orderly O (s.step O i) := by
  have hhandles := handles (O := O) (s := s) i
  obtain ⟨hcore, hfull⟩ := hhandles.core h
  refine ⟨hcore.tick (hhandles.clock.le.trans (Nat.le_succ _)), hfull, fun r hr ↦ ?_⟩
  have hold : ∀ r ∈ s.requests, r.time < s.clock + 1 := fun r hr ↦ (h.past r hr).trans (by omega)
  have hmem : r ∈ (s.handle O i).requests := hr
  rcases hhandles.requests with heq | ⟨w, heq⟩
  · exact hold r (heq ▸ hmem)
  · rw [heq] at hmem
    rcases List.mem_append.mp hmem with hmem | hmem
    · exact hold r hmem
    · rw [List.mem_singleton.mp hmem]
      exact Nat.lt_succ_self _

theorem Orderly.init : Orderly O ({} : SnapshotCompactorQueue J ρ) where
  core :=
    { count := rfl
      bounded := Nat.zero_le _
      apart := List.nodup_nil
      closed := fun _ ↦ rfl
      nodup := List.nodup_nil
      known := fun _ h ↦ absurd h List.not_mem_nil
      kept := fun _ _ h ↦ absurd h (by simp)
      fits := fun _ h ↦ absurd h List.not_mem_nil
      suits := fun _ h ↦ absurd h List.not_mem_nil
      resolved := fun _ _ _ h ↦ absurd h List.not_mem_nil }
  full := fun h ↦ absurd rfl h
  past := fun _ h ↦ absurd h List.not_mem_nil

/-! ## Progress -/

/-- The steps a job has left to be out of the map. -/
def stepsLeft : JobStage → ℕ
  | .running => 3
  | .finished => 2
  | .settled => 1

/-- The steps all jobs have left. -/
def work (active : List (ActiveEntry J ρ)) : ℕ :=
  (active.map fun e ↦ stepsLeft e.progress.stage).sum

theorem work_append (active active' : List (ActiveEntry J ρ)) :
    work (active ++ active') = work active + work active' := by
  rw [work, List.map_append, List.sum_append]
  rfl

theorem work_cons (e : ActiveEntry J ρ) (active : List (ActiveEntry J ρ)) :
    work (e :: active) = stepsLeft e.progress.stage + work active := by
  rw [work, List.map_cons, List.sum_cons]
  rfl

theorem stepsLeft_le (stage : JobStage) : stepsLeft stage ≤ 3 := by
  cases stage <;> decide

theorem stepsLeft_pos (stage : JobStage) : 0 < stepsLeft stage := by
  cases stage <;> decide

theorem work_le (active : List (ActiveEntry J ρ)) : work active ≤ 3 * active.length := by
  induction active with
  | nil => exact Nat.le_refl 0
  | cons e active ih =>
    have hle := stepsLeft_le e.progress.stage
    rw [work_cons, List.length_cons]
    omega

/-- At most `k` steps that are due are left until the request is answered. While it is pending,
every step of a job is due; the jobs before it and the active ones have at most three each. -/
structure Within (n : ℕ) (s : SnapshotCompactorQueue J ρ) (k : ℕ) : Prop where
  active : ∀ e ∈ s.active, n ∈ e.waiters → e.progress.stage ≠ .settled →
    stepsLeft e.progress.stage ≤ k + 1
  pending : ∀ j p, s.pending[j]? = some p → n ∈ p.waiters → work s.active + 3 * j + 2 ≤ k

variable {n k : ℕ}

theorem mem_activeWaiters {active : List (ActiveEntry J ρ)} {e : ActiveEntry J ρ} (he : e ∈ active)
    (hstage : e.progress.stage ≠ .settled) (hn : n ∈ e.waiters) : n ∈ activeWaiters active :=
  List.mem_flatMap.mpr ⟨e, List.mem_filter.mpr ⟨he, decide_eq_true hstage⟩, hn⟩

/-- A request is in one entry. -/
theorem Core.not_both (h : Core O s) {p : SnapshotQueueEntry J} (hp : p ∈ s.pending)
    (hn : n ∈ p.waiters) {e : ActiveEntry J ρ} (he : e ∈ s.active)
    (hstage : e.progress.stage ≠ .settled) : n ∉ e.waiters := fun hne ↦
  (List.disjoint_of_nodup_append h.nodup.of_append_right) (List.mem_flatMap.mpr ⟨p, hp, hn⟩)
    (mem_activeWaiters he hstage hne)

theorem Core.not_other (h : Core O s) {e : ActiveEntry J ρ} {before rest : List (ActiveEntry J ρ)}
    (hsplit : s.active = before ++ e :: rest) (hstage : e.progress.stage ≠ .settled)
    (hn : n ∈ e.waiters) {e' : ActiveEntry J ρ} (he' : e' ∈ before ++ rest)
    (hstage' : e'.progress.stage ≠ .settled) : n ∉ e'.waiters := by
  intro hn'
  have hnodup : (activeWaiters s.active).Nodup := h.nodup.of_append_right.of_append_right
  have hperm : (activeWaiters s.active).Perm (e.waiters ++ activeWaiters (before ++ rest)) := by
    rw [hsplit, activeWaiters_split hstage, activeWaiters_append]
    refine List.perm_iff_count.mpr fun m ↦ ?_
    simp only [List.count_append]
    omega
  exact List.disjoint_of_nodup_append (hperm.nodup_iff.mp hnodup) hn
    (mem_activeWaiters he' hstage' hn')

theorem started_stepsLeft (O : CompactorOptions) (host : JsString → CompactorHost)
    (s : SnapshotCompactorQueue J ρ) (e : SnapshotQueueEntry J) :
    stepsLeft (s.started O host e).progress.stage ≤ 3 := stepsLeft_le _

/-- A start leaves no more to do. -/
theorem Within.start (h : Within n s k) (hs : Core O s) {e : SnapshotQueueEntry J}
    {rest : List (SnapshotQueueEntry J)} (hpending : s.pending = e :: rest) :
    Within n (s.start O host e rest) k := by
  rw [hs.start_eq hpending]
  refine ⟨fun e' he' hn hstage ↦ ?_, fun j p hp hn ↦ ?_⟩
  · rcases List.mem_append.mp he' with hold | hnew
    · exact h.active e' hold hn hstage
    · -- the request was the first one that was pending
      rw [List.mem_singleton.mp hnew] at hn ⊢
      have hfirst := h.pending 0 e (by rw [hpending]; rfl) hn
      have hle := started_stepsLeft O host s e
      omega
  · have hnext := h.pending (j + 1) p (by rw [hpending]; exact hp) hn
    have hle := started_stepsLeft O host s e
    rw [work_append, work_cons]
    change work s.active + (_ + 0) + 3 * j + 2 ≤ k
    omega

theorem Within.drain (h : Within n s k) (hs : Core O s) : Within n (s.drain O host) k :=
  (drain_induction (p := fun s ↦ Core O s ∧ Within n s k) (fun _ _ _ hs hpending hroom hopen ↦
    ⟨hs.1.start hpending hroom hopen, hs.2.start hs.1 hpending⟩) ⟨hs, h⟩).2

/-- A job that goes on. -/
theorem Within.progress (hs : Core O s) {e : ActiveEntry J ρ} {before rest : List (ActiveEntry J ρ)}
    (hsplit : s.active = before ++ e :: rest) {progress : JobProgress ρ}
    (hless : stepsLeft progress.stage < stepsLeft e.progress.stage)
    (hown : n ∈ e.waiters → stepsLeft e.progress.stage ≤ k + 2)
    (hothers : ∀ e' ∈ before ++ rest, n ∈ e'.waiters → e'.progress.stage ≠ .settled →
      stepsLeft e'.progress.stage ≤ k + 1)
    (hpending : ∀ j p, s.pending[j]? = some p → n ∈ p.waiters → work s.active + 3 * j + 2 ≤ k + 1)
    (answers : List (ℕ × SnapshotAnswer ρ)) :
    Within n { s.setProgress e.workspaceId progress with answers := answers } k := by
  have hactive := hs.setProgress_active hsplit progress
  refine ⟨fun e' he' hn hstage ↦ ?_, fun j p hp hn ↦ ?_⟩
  · rw [hactive] at he'
    rcases List.mem_append.mp he' with hmem | hmem
    · exact hothers e' (List.mem_append_left _ hmem) hn hstage
    · rcases List.mem_cons.mp hmem with rfl | hmem
      · have hle := hown hn
        dsimp only
        omega
      · exact hothers e' (List.mem_append_right _ hmem) hn hstage
  · have hle := hpending j p hp hn
    rw [hsplit, work_append, work_cons] at hle
    rw [hactive, work_append, work_cons]
    dsimp only
    omega

/-- A job that is taken out of the map. -/
theorem Within.takeOut (hs : Core O s) {e : ActiveEntry J ρ} {before rest : List (ActiveEntry J ρ)}
    (hsplit : s.active = before ++ e :: rest)
    (hothers : ∀ e' ∈ before ++ rest, n ∈ e'.waiters → e'.progress.stage ≠ .settled →
      stepsLeft e'.progress.stage ≤ k + 1)
    (hpending : ∀ j p, s.pending[j]? = some p → n ∈ p.waiters → work s.active + 3 * j + 2 ≤ k + 1) :
    Within n (s.takeOut e.workspaceId) k := by
  have hactive := hs.takeOut_active hsplit
  refine ⟨fun e' he' ↦ hothers e' (hactive ▸ he'), fun j p hp hn ↦ ?_⟩
  have hle := hpending j p hp hn
  have hpos := stepsLeft_pos e.progress.stage
  rw [hsplit, work_append, work_cons] at hle
  rw [hactive, work_append]
  omega

theorem Within.join (h : Within n s k) (hs : Core O s) {w : JsString} {e : ActiveEntry J ρ}
    (hfind : s.find w = some e) (hn : n < s.requests.length) :
    Within n ({ s with requests := s.requests ++ [s.request w] }.join s.requests.length w) k := by
  obtain ⟨rfl, before, rest, hsplit⟩ := split_of_find hfind
  have hactive : ({ s with requests := s.requests ++ [s.request e.workspaceId] }.join
      s.requests.length e.workspaceId).active =
      before ++ { e with waiters := e.waiters ++ [s.requests.length] } :: rest :=
    hs.join_active hsplit
  refine ⟨fun e' he' hn' hstage ↦ ?_, fun j p hp hn' ↦ ?_⟩
  · rw [hactive] at he'
    rcases List.mem_append.mp he' with hmem | hmem
    · exact h.active e' (hsplit ▸ List.mem_append_left _ hmem) hn' hstage
    · rcases List.mem_cons.mp hmem with rfl | hmem
      · refine h.active e (hsplit ▸ List.mem_append_right _ List.mem_cons_self) ?_ hstage
        exact (List.mem_append.mp hn').resolve_right fun hmem ↦ hn.ne (List.mem_singleton.mp hmem)
      · exact h.active e' (hsplit ▸ List.mem_append_right _ (List.mem_cons_of_mem _ hmem)) hn' hstage
  · have hle := h.pending j p hp hn'
    rw [hsplit, work_append, work_cons] at hle
    rw [hactive, work_append, work_cons]
    exact hle

theorem Within.await (h : Within n s k) {w : JsString} {snapshot : J}
    (hn : n < s.requests.length) : Within n ({ s with
      requests := s.requests ++ [s.request w] }.await s.requests.length w snapshot) k := by
  refine ⟨h.active, fun j p hp hn' ↦ ?_⟩
  have hne : ∀ {waiters : List ℕ}, n ∈ waiters ++ [s.requests.length] → n ∈ waiters := fun hmem ↦
    (List.mem_append.mp hmem).resolve_right fun hmem ↦ hn.ne (List.mem_singleton.mp hmem)
  rw [SnapshotCompactorQueue.await, Table.upsert] at hp
  split_ifs at hp with hsome
  · rw [Table.update, List.getElem?_map] at hp
    obtain ⟨q, hq, rfl⟩ := Option.map_eq_some_iff.mp hp
    refine h.pending j q hq ?_
    split_ifs at hn' with hkey
    · exact hne hn'
    · exact hn'
  · rcases Nat.lt_or_ge j s.pending.length with hj | hj
    · rw [List.getElem?_append_left hj] at hp
      exact h.pending j p hp hn'
    · rw [List.getElem?_append_right hj, List.getElem?_singleton] at hp
      split_ifs at hp
      obtain rfl := Option.some.inj hp
      exact absurd (List.mem_singleton.mp hn') hn.ne

/-- No input leaves more to do. -/
theorem Handles.within (h : Handles O s i t) (hs : Orderly O s) (hn : n < s.requests.length)
    (hwithin : Within n s k) : Within n t k := by
  have hothers : ∀ {e : ActiveEntry J ρ} {before rest : List (ActiveEntry J ρ)},
      s.active = before ++ e :: rest → ∀ e' ∈ before ++ rest, n ∈ e'.waiters →
      e'.progress.stage ≠ .settled → stepsLeft e'.progress.stage ≤ k + 1 := by
    intro e before rest hsplit e' he' hmem hstage
    refine hwithin.active e' ?_ hmem hstage
    rw [hsplit]
    exact List.mem_append.mpr ((List.mem_append.mp he').imp_right (List.mem_cons_of_mem _))
  have hpending : ∀ j p, s.pending[j]? = some p → n ∈ p.waiters →
      work s.active + 3 * j + 2 ≤ k + 1 := fun j p hp hmem ↦
    (hwithin.pending j p hp hmem).trans (Nat.le_succ k)
  have hown : ∀ {e : ActiveEntry J ρ}, s.find e.workspaceId = some e →
      e.progress.stage ≠ .settled → n ∈ e.waiters → stepsLeft e.progress.stage ≤ k + 2 :=
    fun hfind hstage hmem ↦
      (hwithin.active _ (Table.mem_of_lookup hfind) hmem hstage).trans (Nat.le_succ _)
  cases h with
  | refuse => exact ⟨hwithin.active, hwithin.pending⟩
  | join w snapshot host e hfind =>
    exact (hwithin.join hs.core hfind hn).drain (hs.core.join hfind)
  | await w snapshot host hopen hfind =>
    exact (hwithin.await hn).drain (hs.core.await hopen hfind snapshot)
  | shut => exact ⟨hwithin.active, fun _ _ hp ↦ absurd hp (by simp [SnapshotCompactorQueue.shut])⟩
  | finish e result hfind hrunning =>
    obtain ⟨-, before, rest, hsplit⟩ := split_of_find hfind
    exact Within.progress hs.core hsplit (by rw [hrunning]; exact Nat.lt_succ_self 2)
      (hown hfind (by rw [hrunning]; exact nofun)) (hothers hsplit) hpending s.answers
  | settle e result finishedAt hfind hfinished =>
    obtain ⟨-, before, rest, hsplit⟩ := split_of_find hfind
    exact Within.progress hs.core hsplit (by rw [hfinished]; exact Nat.lt_succ_self 1)
      (hown hfind (by rw [hfinished]; exact nofun)) (hothers hsplit) hpending _
  | remove e host hfind hsettled =>
    obtain ⟨-, before, rest, hsplit⟩ := split_of_find hfind
    exact (Within.takeOut hs.core hsplit (hothers hsplit) hpending).drain
      (hs.core.takeOut hfind hsettled)
  | idle => exact hwithin

/-- What a due input finds: the request is pending, or waits for the job that goes on. -/
theorem due_cases (h : s.due n i = true) : ∃ e, s.advanced i = some e ∧
    ((∃ p ∈ s.pending, n ∈ p.waiters) ∨ n ∈ e.waiters ∧ e.progress.stage ≠ .settled) := by
  obtain ⟨e, he, hor⟩ := (Option.any_eq_true _ _).mp h
  refine ⟨e, he, ?_⟩
  rcases Bool.or_eq_true_iff.mp hor with hpending | hactive
  · obtain ⟨p, hp, hn⟩ := List.any_eq_true.mp hpending
    exact Or.inl ⟨p, hp, of_decide_eq_true hn⟩
  · obtain ⟨hn, hstage⟩ := Bool.and_eq_true_iff.mp hactive
    exact Or.inr ⟨of_decide_eq_true hn, of_decide_eq_true hstage⟩

theorem advanced_of_find {e : ActiveEntry J ρ} (hfind : s.find e.workspaceId = some e)
    {stage : JobStage} (hstage : e.progress.stage = stage) :
    (s.find e.workspaceId).filter (fun e ↦ e.progress.stage = stage) = some e := by
  rw [hfind, Option.filter_some, if_pos (decide_eq_true hstage)]

/-- An input that is due leaves less to do. -/
theorem Handles.within_of_due (h : Handles O s i t) (hs : Orderly O s)
    (hdue : s.due n i = true) (hwithin : Within n s (k + 1)) : Within n t k := by
  obtain ⟨e, hadvanced, hwaits⟩ := due_cases hdue
  -- the request waits in no other job
  have hothers : ∀ {before rest : List (ActiveEntry J ρ)}, s.active = before ++ e :: rest →
      ∀ e' ∈ before ++ rest, n ∈ e'.waiters → e'.progress.stage ≠ .settled →
      stepsLeft e'.progress.stage ≤ k + 1 := by
    intro before rest hsplit e' he' hmem hstage
    rcases hwaits with ⟨p, hp, hn⟩ | ⟨hn, hstage'⟩
    · refine absurd hmem (hs.core.not_both hp hn ?_ hstage)
      rw [hsplit]
      exact List.mem_append.mpr ((List.mem_append.mp he').imp_right (List.mem_cons_of_mem _))
    · exact absurd hmem (hs.core.not_other hsplit hstage' hn he' hstage)
  have hown : s.find e.workspaceId = some e → e.progress.stage ≠ .settled → n ∈ e.waiters →
      stepsLeft e.progress.stage ≤ k + 2 := fun hfind hstage hmem ↦
    hwithin.active e (Table.mem_of_lookup hfind) hmem hstage
  cases h with
  | refuse => exact absurd hadvanced nofun
  | join => exact absurd hadvanced nofun
  | await => exact absurd hadvanced nofun
  | shut => exact absurd hadvanced nofun
  | finish e' result hfind hrunning =>
    obtain rfl : e' = e := Option.some.inj
      ((advanced_of_find hfind (by rw [hrunning]; rfl)).symm.trans hadvanced)
    obtain ⟨-, before, rest, hsplit⟩ := split_of_find hfind
    exact Within.progress hs.core hsplit (by rw [hrunning]; exact Nat.lt_succ_self 2)
      (hown hfind (by rw [hrunning]; exact nofun)) (hothers hsplit) hwithin.pending s.answers
  | settle e' result finishedAt hfind hfinished =>
    obtain rfl : e' = e := Option.some.inj
      ((advanced_of_find hfind (by rw [hfinished]; rfl)).symm.trans hadvanced)
    obtain ⟨-, before, rest, hsplit⟩ := split_of_find hfind
    exact Within.progress hs.core hsplit (by rw [hfinished]; exact Nat.lt_succ_self 1)
      (hown hfind (by rw [hfinished]; exact nofun)) (hothers hsplit) hwithin.pending _
  | remove e' host hfind hsettled =>
    obtain rfl : e' = e := Option.some.inj
      ((advanced_of_find hfind (by rw [hsettled]; rfl)).symm.trans hadvanced)
    obtain ⟨-, before, rest, hsplit⟩ := split_of_find hfind
    exact (Within.takeOut hs.core hsplit (hothers hsplit) hwithin.pending).drain
      (hs.core.takeOut hfind hsettled)
  | idle _ hidle => exact absurd (hadvanced.symm.trans hidle) nofun

/-- Every job has a next step. -/
theorem exists_advanced (hs : Core O s) {e : ActiveEntry J ρ} (he : e ∈ s.active) :
    ∃ i, s.advanced i = some e := by
  have hfind : s.find e.workspaceId = some e := Table.lookup_of_mem hs.apart_active he
  cases hstage : e.progress.stage with
  | running => exact ⟨.finish e.workspaceId (.error []), advanced_of_find hfind hstage⟩
  | finished => exact ⟨.settle e.workspaceId, advanced_of_find hfind hstage⟩
  | settled =>
    exact ⟨.remove e.workspaceId fun _ ↦ ⟨.ok 0, 0, 0⟩, advanced_of_find hfind hstage⟩

/-- A request that waits has an input that is due. -/
theorem Orderly.exists_due (hs : Orderly O s) (hn : n ∈ s.places)
    (hopen : n ∉ s.answers.map Prod.fst) : ∃ i, s.due n i = true := by
  rcases List.mem_append.mp ((List.mem_append.mp hn).resolve_left hopen) with hmem | hmem
  · obtain ⟨p, hp, hmem⟩ := List.mem_flatMap.mp hmem
    -- there is no room, so there is a job
    have hrunning := hs.full (List.ne_nil_of_mem hp)
    obtain ⟨e, he⟩ : ∃ e, e ∈ s.active := List.exists_mem_of_length_pos
      (hs.core.count ▸ hrunning ▸ O.positive)
    obtain ⟨i, hi⟩ := exists_advanced hs.core he
    refine ⟨i, ?_⟩
    rw [due, hi, Option.any_some, Bool.or_eq_true_iff]
    exact Or.inl (List.any_eq_true.mpr ⟨p, hp, decide_eq_true hmem⟩)
  · obtain ⟨e, he, hmem⟩ := List.mem_flatMap.mp hmem
    obtain ⟨he, hstage⟩ := List.mem_filter.mp he
    obtain ⟨i, hi⟩ := exists_advanced hs.core he
    refine ⟨i, ?_⟩
    rw [due, hi, Option.any_some, Bool.or_eq_true_iff]
    exact Or.inr (Bool.and_eq_true_iff.mpr ⟨decide_eq_true hmem, hstage⟩)

/-- What is left for a request can be counted. -/
theorem within_bound (s : SnapshotCompactorQueue J ρ) (n : ℕ) :
    Within n s (3 * s.active.length + 3 * s.pending.length + 2) := by
  refine ⟨fun e _ _ _ ↦ ?_, fun j p hp _ ↦ ?_⟩
  · have hle := stepsLeft_le e.progress.stage
    omega
  · obtain ⟨hj, -⟩ := List.getElem?_eq_some_iff.mp hp
    have hle := work_le s.active
    omega

/-- **Every request is answered**, after finitely many steps of the jobs it waits for. -/
theorem Orderly.settled_or_due (hs : Orderly O s) {r : SnapshotRequest}
    (hr : s.requests[n]? = some r) (hfound : r.found ≠ some .settled)
    (later : List (CompactorInput J ρ)) :
    n ∈ (later.foldl (SnapshotCompactorQueue.step O) s).answers.map Prod.fst ∨
      (∃ i, (later.foldl (SnapshotCompactorQueue.step O) s).due n i = true) ∧ dueSteps (SnapshotCompactorQueue.step O) (due n) s later <
        3 * s.active.length + 3 * s.pending.length + 2 := by
  have hkeeps : ∀ (s : SnapshotCompactorQueue J ρ) (i : CompactorInput J ρ),
      Orderly O s ∧ s.requests[n]? = some r →
      Orderly O (s.step O i) ∧ (s.step O i).requests[n]? = some r := by
    refine fun s i ⟨hs, hr⟩ ↦ ⟨hs.step i, ?_⟩
    rcases (handles (O := O) (s := s) i).requests with heq | ⟨w, heq⟩
    · exact (congrArg (·[n]?) heq).trans hr
    · exact (congrArg (·[n]?) heq).trans (getElem?_concat_of_some hr)
  obtain ⟨hend, hrend⟩ : Orderly O (later.foldl (SnapshotCompactorQueue.step O) s) ∧
      (later.foldl (SnapshotCompactorQueue.step O) s).requests[n]? = some r :=
    List.foldlRecOn later (SnapshotCompactorQueue.step O) ⟨hs, hr⟩ fun s hs i _ ↦ hkeeps s i hs
  have hplace := hend.core.kept n r hrend hfound
  by_cases hopen : n ∈ (later.foldl (SnapshotCompactorQueue.step O) s).answers.map Prod.fst
  · exact Or.inl hopen
  refine Or.inr ⟨hend.exists_due hplace hopen, Nat.lt_of_not_le fun hdone ↦ ?_⟩
  have hzero : Within n (later.foldl (SnapshotCompactorQueue.step O) s) 0 :=
    within_of_dueSteps (p := fun s ↦ Orderly O s ∧ s.requests[n]? = some r) hkeeps
      (fun s i k hs h ↦ by
        have hn : n < s.requests.length := (List.getElem?_eq_some_iff.mp hs.2).1
        have ht := (handles (O := O) (s := s) i).within hs.1 hn h
        exact ⟨ht.active, ht.pending⟩)
      (fun s i k hs hdue h ↦ by
        have ht := (handles (O := O) (s := s) i).within_of_due hs.1 hdue h
        exact ⟨ht.active, ht.pending⟩)
      later s _ ⟨hs, hr⟩ hdone (within_bound s n)
  -- no step is left: the request is in no entry
  rcases List.mem_append.mp ((List.mem_append.mp hplace).resolve_left hopen) with hmem | hmem
  · obtain ⟨p, hp, hmem⟩ := List.mem_flatMap.mp hmem
    obtain ⟨j, hj⟩ := List.getElem?_of_mem hp
    have hle := hzero.pending j p hj hmem
    omega
  · obtain ⟨e, he, hmem⟩ := List.mem_flatMap.mp hmem
    obtain ⟨he, hstage⟩ := List.mem_filter.mp he
    have hle := hzero.active e he hmem (of_decide_eq_true hstage)
    cases hprogress : e.progress.stage with
    | running =>
      rw [hprogress] at hle
      exact absurd hle (by decide)
    | finished =>
      rw [hprogress] at hle
      exact absurd hle (by decide)
    | settled => exact of_decide_eq_true hstage hprogress

/-- **The queue**: after every history of calls and job steps, no request has been answered twice;
every record is that of a job of the workspace of its request, started after the request unless the
request joined an active job; there are never more jobs than allowed nor two of one workspace; and
every request that has not joined a job whose waiters had been answered is answered once the steps
it waits for have been taken. -/
theorem requests_coalesced (history : List (CompactorInput J ρ)) :
    Coalesced O (after O history) := by
  have horderly : Orderly O (after O history) :=
    List.foldlRecOn history (step O) Orderly.init fun s hs i _ ↦ hs.step i
  exact {
    once := horderly.core.nodup.of_append_left
    resolved := horderly.core.resolved
    bounded := horderly.core.bounded
    apart := horderly.core.apart_active
    settles := fun n r hr hfound ↦ ⟨_, horderly.settled_or_due hr hfound⟩ }

/-! ## Joining -/

/-- A host with room. -/
def idleHost : JsString → CompactorHost := fun _ ↦ ⟨.ok (2 * 1024 * 1024 * 1024), 0, 1⟩

/-- A second request while the job of the first is running. -/
def joined : List (CompactorInput ℕ ℕ) :=
  [.enqueue (js "w") 0 idleHost, .enqueue (js "w") 1 idleHost, .finish (js "w") (.ok 7),
    .settle (js "w")]

/-- The job a request has been answered with. -/
def answeredWith : ℕ × SnapshotAnswer ρ → Option (ℕ × SnapshotJob)
  | (n, .resolved _ job) => some (n, job)
  | (_, .rejected _) => none

/-- The second request is answered with the job that was started for the first. -/
theorem not_prompt_joined : ¬Prompt (after {} joined) := by
  intro h
  have hjob : some (1, ⟨js "w", 0, 2⟩) ∈ (after {} joined).answers.map answeredWith := by
    decide +kernel
  obtain ⟨⟨n, answer⟩, hmem, hanswer⟩ := List.mem_map.mp hjob
  cases answer with
  | rejected => exact absurd hanswer nofun
  | resolved record job =>
    obtain ⟨rfl, rfl⟩ := Prod.mk.inj (Option.some.inj hanswer)
    obtain ⟨r, hr, htime⟩ := h 1 record _ hmem
    have hsecond : ((after {} joined).requests[1]?).map SnapshotRequest.time = some 1 := by
      decide +kernel
    rw [hr, Option.map_some, Option.some.injEq] at hsecond
    rw [hsecond] at htime
    exact absurd htime (by decide)

end SnapshotCompactorQueue

end LiteHarness.Workspace
